import ChannelDigests.Atomicity
import ChannelDigests.Fit
import ChannelDigests.FanOut

/-!
# Which messages are refused for the moment

While no statement is lost a delivery is refused for the moment (`nak`) only when the database
refuses a statement.  With fresh identities that happens for two kinds of messages, and they are
refused again at every redelivery.

* `Db.Unused`, `available`   fresh identities, and an environment that loses no statement;
* `rejectTx_keeps` … `settleFailureTx_keeps`   the transactions that the database accepts;
* `Message.Collides`         the messages that take an identity of another row;
* `handle_nak_iff`           **a delivery is refused for the moment exactly when its message
                             collides**.
-/

namespace ChannelDigests
open Lib Prog

/-- no row has this identity. -/
structure Db.Unused (d : Db) (id : Uuid) : Prop where
  channel : ∀ c ∈ d.channels, c.channelId ≠ id
  subscription : ∀ s ∈ d.subscriptions, s.subscriptionId ≠ id
  run : ∀ r ∈ d.runs, r.runId ≠ id
  result : ∀ x ∈ d.results, x.resultId ≠ id
  outbox : ∀ o ∈ d.outbox, o.outboxId ≠ id

/-- the moment loses no statement, and its identities are new in `d`. -/
structure Fresh (d : Db) (m : Moment) : Prop where
  fuse : m.fuse = none
  distinct : Function.Injective m.ids
  unused : ∀ n, d.Unused (m.ids n)

/-- the database answers every statement, and `Uuid::now_v7` returns new identities. -/
def available (d : Db) (_ : Unit) (q : Question) (a : q.Answer) (_ : Unit) : Prop :=
  match q, a with
  | .moment, m => Fresh d m
  | _, _ => True

theorem available_surrounds (d : Db) : Surrounds (Eq (α := Db)) (available d) False :=
  ⟨fun _ => rfl, Eq.trans, fun _ _ _ h hf => hf h.fuse⟩

/-! ## Statements that are accepted -/

section
variable {C : Contracts} {ε : Type} {lost : ε} {d : Db} {P : Prop} {E : ε → Prop}

/-- queueing a report under a new identity fails only when the report is not valid. -/
theorem wp_enqueue_fresh [FromReportError ε] {row : OperationReportRow} {id : Uuid} {now : Instant}
    {Q : Unit → Db → Prop} (hid : ∀ o ∈ d.outbox, o.outboxId ≠ id) (hE : E (ofReport .invalid))
    (h : ∀ d', Q () d') : (row.enqueue C id now : Sql ε Unit).wp False Q E d := by
  simp only [OperationReportRow.enqueue, Tx.wp_bind, Tx.wp_check, insertOutboxOnce, Tx.wp_attempt]
  refine ⟨fun _ => ⟨False.elim, fun _ d' _ => h d', fun x hx => ?_⟩, fun _ => hE⟩
  split_ifs at hx with h1 h2
  obtain ⟨o, ho, he⟩ := List.any_eq_true.mp h2
  exact absurd (of_decide_eq_true he) (hid o ho)

theorem wp_reportOwned_fresh [FromReportError ε] {runId ownerId id : Uuid} {now : Instant}
    {report : Uuid → OperationReportRow} {Q : Unit → Db → Prop}
    (hid : ∀ o ∈ d.outbox, o.outboxId ≠ id) (hE : E (ofReport .invalid)) (h : ∀ d', Q () d') :
    (reportOwned C runId ownerId report id now : Sql ε Unit).wp False Q E d := by
  simp only [reportOwned, onDemandOperation, Tx.wp_bind, Tx.wp_read]
  refine ⟨False.elim, ?_⟩
  rcases d.onDemandOperation runId ownerId with _ | operation
  · exact h d
  · exact wp_enqueue_fresh hid hE h

end

/-! ## Commands -/

section
variable {C : Contracts} {d : Db} {m : Moment} {messageId : Uuid} {sha : Digest}

theorem rejectTx_keeps {r : Rejection} (hm : Fresh d m) :
    (rejectTx C r m).closes False (fun x _ => x ≠ .error .storage) d := by
  unfold Tx.closes rejectTx
  simp only [Tx.wp_bind, Tx.wp_mark]
  refine ⟨False.elim, wp_insertInbox False.elim (fun _ => ?_) fun _ => ?_⟩
  · simp [Tx.wp_rollback]
  · simp only [Bool.not_true, Bool.false_eq_true, if_false, Tx.wp_bind]
    exact wp_enqueue_fresh (hm.unused 0).outbox (by simp [ofReport]) fun d' =>
      ⟨False.elim, by simp⟩

/-- the channel and the subscription are found, or inserted under new identities. -/
theorem setSubscription_accepted {owner : Uuid} {username : String} {enabled : Bool} {now : Instant}
    {sid cid : Uuid} (hs : d.Unused sid) (hc : d.Unused cid) :
    d.setSubscription sid cid owner username enabled now ≠ .violation := by
  have hchannel : ∃ c d', d.withChannel cid (lower username) = some (c, d') ∧
      d'.subscriptions = d.subscriptions := by
    unfold Db.withChannel
    rcases d.channelOf (lower username) with _ | c
    · have hnew : d.channels.any (fun c => c.channelId = cid) = false :=
        List.any_eq_false.mpr fun c h => by simpa using hc.channel c h
      simp only [hnew, Bool.false_eq_true, if_false]
      exact ⟨_, _, rfl, rfl⟩
    · exact ⟨_, _, rfl, rfl⟩
  obtain ⟨c, d', hw, hsubs⟩ := hchannel
  have hnew : d'.subscriptions.any (fun s => s.subscriptionId = sid) = false :=
    List.any_eq_false.mpr fun s h => by simpa using hs.subscription s (hsubs ▸ h)
  unfold Db.setSubscription
  rw [hw]
  dsimp only
  rcases d'.subscriptionOf owner c with _ | existing
  · simp only [hnew, Bool.false_eq_true, if_false]
    split_ifs <;> simp
  · dsimp only
    split_ifs <;> simp

theorem subscriptionTx_keeps {c : SubscriptionSetRequested} (hm : Fresh d m) :
    (subscriptionTx C c messageId sha m).closes False
      (fun x d' => x ≠ .error .storage ∧ (x = .ok .refused → d' = d)) d := by
  unfold Tx.closes subscriptionTx
  simp only [Tx.wp_bind, Tx.wp_mark]
  refine ⟨False.elim, wp_claim False.elim (fun _ => ?_) fun _ => ?_⟩
  · simp [Tx.wp_rollback]
  · simp only [Bool.not_true, Bool.false_eq_true, if_false, Tx.wp_bind, setSubscription,
      Tx.wp_attempt]
    refine ⟨False.elim, fun s d₁ hs => ?_, fun e he => ?_⟩
    · split at hs
      · cases hs
      · cases hs
        exact ⟨False.elim, by simp, fun _ => trivial⟩
      · next s d₁ hset =>
        cases hs
        have hob : d₁.outbox = d.outbox := by rw [setSubscription_eq hset]
        simp only [Tx.wp_bind]
        exact wp_enqueue_fresh (hob ▸ (hm.unused 2).outbox) ⟨by simp [ofReport], by simp⟩
          fun d' => ⟨False.elim, False.elim, by simp, by simp⟩
    · have hinbox : Db.Unused { d with inbox := d.inbox ++ [.processing messageId .subscription
          (.text c.idempotencyKey) sha] } (m.ids 0) ∧
        Db.Unused { d with inbox := d.inbox ++ [.processing messageId .subscription
          (.text c.idempotencyKey) sha] } (m.ids 1) := by
        obtain ⟨h1, h2, h3, h4, h5⟩ := hm.unused 0
        obtain ⟨e1, e2, e3, e4, e5⟩ := hm.unused 1
        exact ⟨⟨h1, h2, h3, h4, h5⟩, ⟨e1, e2, e3, e4, e5⟩⟩
      split at he
      · next hset => exact absurd hset (setSubscription_accepted hinbox.1 hinbox.2)
      · cases he
      · cases he

/-- the natural key of the command is new, and its run identity is taken. -/
def Db.runTaken (d : Db) (c : RunRequested) : Prop :=
  (∀ r ∈ d.runs, r.naturalKey ≠ (c.run 0).naturalKey) ∧ ∃ r ∈ d.runs, r.runId = c.digestRunId

theorem runTx_keeps {c : RunRequested} (hm : Fresh d m) (hwindow : c.windowStart < c.windowEnd) :
    (runTx C c messageId sha m).closes False
      (fun x d' => (x = .error .storage ↔
          d.inboxHolds messageId .run (.text c.idempotencyKey) = false ∧ d.runTaken c) ∧
        (x = .ok .refused → d' = d ∧ ¬ d.runTaken c)) d := by
  unfold Tx.closes runTx
  simp only [Tx.wp_bind, Tx.wp_mark]
  refine ⟨False.elim, wp_claim False.elim (fun h => ?_) fun h => ?_⟩
  · simp [Tx.wp_rollback, h]
  · simp only [Bool.not_true, Bool.false_eq_true, if_false, Tx.wp_bind, createDigestRun,
      Tx.wp_attempt]
    have hw : (!decide ((c.run m.now).windowStart < (c.run m.now).windowEnd)) = false := by
      rw [show decide ((c.run m.now).windowStart < (c.run m.now).windowEnd) = true from
        decide_eq_true hwindow]
      rfl
    unfold Db.insertRun
    rw [hw]
    simp only [Bool.false_eq_true, if_false]
    by_cases hkey : d.runs.any (fun r => r.naturalKey = (c.run m.now).naturalKey) = true
    · -- the natural key is taken: the run that holds it is selected.
      have hnot : ¬ d.runTaken c := by
        rintro ⟨hnew, -⟩
        obtain ⟨r, hr, he⟩ := List.any_eq_true.mp hkey
        exact hnew r hr (of_decide_eq_true he)
      simp only [hkey, if_true]
      refine ⟨False.elim, fun s d₁ hs => ?_, fun e he => by cases he⟩
      cases hs
      simp only [Tx.wp_ite, Tx.wp_rollback]
      refine ⟨fun _ => ⟨False.elim, by simp [hnot]⟩, fun _ => ?_⟩
      simp only [Tx.wp_bind, setOutputLanguage, Tx.wp_change, reportQueued, Tx.wp_ite, Tx.wp_pure]
      refine ⟨False.elim, fun _ => ?_, fun _ => ⟨False.elim, False.elim, by simp [hnot]⟩⟩
      exact wp_enqueue_fresh (hm.unused 0).outbox (by simp [ofReport, hnot])
        fun d' => ⟨False.elim, False.elim, by simp [hnot]⟩
    · simp only [hkey, Bool.false_eq_true, if_false]
      by_cases hid : d.runs.any (fun r => r.runId = (c.run m.now).runId) = true
      · -- its identity is not: the primary key refuses the run.
        have htaken : d.runTaken c := by
          refine ⟨fun r hr he => hkey (List.any_eq_true.mpr ⟨r, hr, ?_⟩), ?_⟩
          · exact decide_eq_true he
          · obtain ⟨r, hr, he⟩ := List.any_eq_true.mp hid
            exact ⟨r, hr, of_decide_eq_true he⟩
        simp only [hid, if_true]
        refine ⟨False.elim, fun s d₁ hs => (by cases hs), fun e he => ?_⟩
        cases he
        simp [h, htaken]
      · have hnot : ¬ d.runTaken c := by
          rintro ⟨-, r, hr, he⟩
          exact hid (List.any_eq_true.mpr ⟨r, hr, decide_eq_true he⟩)
        simp only [hid, Bool.false_eq_true, if_false]
        refine ⟨False.elim, fun s d₁ hs => ?_, fun e he => by cases he⟩
        cases hs
        simp only [Tx.wp_ite, Tx.wp_rollback]
        refine ⟨fun hne => absurd rfl hne, fun _ => ?_⟩
        simp only [Tx.wp_bind, setOutputLanguage, Tx.wp_change, reportQueued, Tx.wp_ite, Tx.wp_pure]
        refine ⟨False.elim, fun _ => ?_, fun _ => ⟨False.elim, False.elim, by simp [hnot]⟩⟩
        exact wp_enqueue_fresh (hm.unused 0).outbox (by simp [ofReport, hnot])
          fun d' => ⟨False.elim, False.elim, by simp [hnot]⟩

/-- a fan-out inserts its runs under new identities. -/
theorem wp_fanOutOwners_fresh {o : OccurrenceRequest} {subs : List Subscription}
    (owners : List Uuid) (n : Nat) {Q : Unit → Db → Prop} {E : CoordinatorError → Prop}
    (hids : Function.Injective m.ids) (hprev : o.previousDueAt < o.dueAt)
    (howners : ∀ owner ∈ owners, owner ∈ dueOwners subs o.dueAt)
    (hruns : ∀ r ∈ d.runs, ∀ k, n ≤ k → r.runId ≠ m.ids k)
    (h : ∀ d', d'.outbox = d.outbox → Q () d') :
    (fanOutOwners o subs m owners n).wp False Q E d := by
  induction owners generalizing d n with
  | nil => exact h d rfl
  | cons owner owners ih =>
    have hw : (!decide ((o.run subs (m.ids n) owner m.now).windowStart <
        (o.run subs (m.ids n) owner m.now).windowEnd)) = false := by
      have hlt := scheduledStart_lt hprev (howners owner List.mem_cons_self)
      rw [show decide ((o.run subs (m.ids n) owner m.now).windowStart <
        (o.run subs (m.ids n) owner m.now).windowEnd) = true from decide_eq_true hlt]
      rfl
    have hid : d.runs.any (fun r => r.runId = (o.run subs (m.ids n) owner m.now).runId) = false :=
      List.any_eq_false.mpr fun r hr he => hruns r hr n le_rfl (of_decide_eq_true he)
    have hrest := fun owner' h' => howners owner' (List.mem_cons_of_mem owner h')
    simp only [fanOutOwners, Tx.wp_bind, Tx.wp_mark, insertScheduledRun, guarded, Tx.wp_attempt]
    unfold Db.insertRun
    rw [hw, hid]
    simp only [Bool.false_eq_true, if_false]
    refine ⟨False.elim, False.elim, fun _ d₁ hd₁ => ?_, fun e he => ?_⟩
    · split_ifs at hd₁ with hkey
      · cases hd₁
        exact ih (n + 1) hrest (fun r hr k hk => hruns r hr k (Nat.le_of_succ_le hk)) h
      · cases hd₁
        refine ih (n + 1) hrest (fun r hr k hk => ?_) h
        rcases List.mem_append.mp hr with hr | hr
        · exact hruns r hr k (Nat.le_of_succ_le hk)
        · rw [List.mem_singleton.mp hr]
          intro he
          exact absurd (hids he) (Nat.ne_of_lt hk)
    · split_ifs at he <;> cases he

theorem occurrenceTx_keeps {o : OccurrenceRequest} (hm : Fresh d m)
    (hprev : o.previousDueAt < o.dueAt) :
    (occurrenceTx C o m).closes False (fun x _ => x ≠ .error .storage) d := by
  unfold Tx.closes occurrenceTx
  simp only [Tx.wp_bind, Tx.wp_mark]
  refine ⟨False.elim, wp_claim False.elim (fun _ => ?_) fun _ => ?_⟩
  · simp [Tx.wp_rollback]
  · simp only [Bool.not_true, Bool.false_eq_true, if_false, Tx.wp_bind, fanOut, Tx.wp_read]
    refine ⟨False.elim, wp_fanOutOwners_fresh _ _ hm.distinct hprev (fun _ h => h)
      (fun r hr k _ => (hm.unused k).run r hr) fun d' hob => ?_⟩
    exact wp_enqueue_fresh (hob ▸ (hm.unused 0).outbox) (by simp [ofReport]) fun d'' =>
      ⟨False.elim, False.elim, by simp⟩

end

/-! ## Facts -/

section
variable {C : Contracts} {d : Db} {m : Moment} {messageId : Uuid} {sha : Digest}

/-- the result of a run that waits is inserted. -/
theorem wp_insertResult_free {row : DigestResult} {Q : Unit → Db → Prop}
    {E : CoordinatorError → Prop} (hfree : d.resultFree row)
    (hrun : ∃ r ∈ d.runs, r.runId = row.runId) (hmf : ∃ m ∈ d.manifests, m.manifestId = row.manifestId)
    (h : Q () { d with results := d.results ++ [row] }) : (insertResult row).wp False Q E d := by
  obtain ⟨r, hr, hrid⟩ := hrun
  obtain ⟨mf, hmf, hmid⟩ := hmf
  have h1 : (d.results.any fun r => decide (r.resultId = row.resultId) ||
      decide (r.runId = row.runId) || decide (r.manifestId = row.manifestId)) = false :=
    List.any_eq_false.mpr fun x hx => by
      obtain ⟨e1, e2, e3⟩ := hfree x hx
      simp [e1, e2, e3]
  have h2 : (d.runs.all fun r => decide (r.runId ≠ row.runId)) = false :=
    List.all_eq_false.mpr ⟨r, hr, by simp [hrid]⟩
  have h3 : (d.manifests.all fun m => decide (m.manifestId ≠ row.manifestId)) = false :=
    List.all_eq_false.mpr ⟨mf, hmf, by simp [hmid]⟩
  simp only [insertResult, Tx.wp_attempt, h1, h2, h3, Bool.false_eq_true, if_false]
  refine ⟨False.elim, fun _ d' hd' => ?_, fun e he => by cases he⟩
  cases hd'
  exact h

/-- a run that waits for its recap has no result, and neither has its manifest. -/
theorem Db.Joined.waiting_free (hd : d.Joined) {r : Run} {mf : Manifest} (hr : r ∈ d.runs)
    (hs : r.state = .waitingRecap) (hmf : mf ∈ d.manifests) (hrun : mf.runId = r.runId) :
    ∀ x ∈ d.results, x.runId ≠ r.runId ∧ x.manifestId ≠ mf.manifestId := by
  intro x hx
  obtain ⟨r', hr', m, hm, h1, -, h3, h4, h5⟩ := hd.resultRun x hx
  have hne : x.runId ≠ r.runId := by
    intro hid
    obtain rfl := hd.keyed.runs.eq hr' hr (h1.trans hid)
    rw [hs] at h3
    revert h3
    cases x.outcome <;> decide
  refine ⟨hne, fun hid => hne ?_⟩
  obtain rfl := hd.keyed.manifests.eq hm hmf (h5.trans hid)
  exact h4.symm.trans hrun

/-- the result of an identity is read with its manifest. -/
theorem Db.Joined.resultEvidence_none (hd : d.Joined) {id : Uuid} (h : d.resultEvidence id = none) :
    ∀ x ∈ d.results, x.resultId ≠ id := by
  rintro x hx rfl
  obtain ⟨-, -, m, hm, -, -, -, -, hmid⟩ := hd.resultRun x hx
  have hfind : d.results.find? (fun r => r.resultId = x.resultId) = some x :=
    hd.keyed.results.find? hx (by simp) fun o _ ho => of_decide_eq_true ho
  have hmf : d.manifests.find? (fun r => r.manifestId = x.manifestId) = some m :=
    hd.keyed.manifests.find? hm (by simp [hmid]) fun o _ ho =>
      (of_decide_eq_true ho).trans hmid.symm
  simp [Db.resultEvidence, hfind, hmf] at h

theorem resultEvidence_some {id : Uuid} {stored : DigestResult × Digest}
    (h : d.resultEvidence id = some stored) : stored.1 ∈ d.results ∧ stored.1.resultId = id := by
  unfold Db.resultEvidence at h
  obtain ⟨x, hx, h⟩ := Option.bind_eq_some_iff.mp h
  obtain ⟨m, -, h⟩ := Option.bind_eq_some_iff.mp h
  cases h
  exact ⟨List.mem_of_find?_eq_some hx, by simpa using List.find?_some hx⟩

theorem settleCompletionTx_keeps {fact : RecapCompleted} {analysisId : Uuid} {incomplete : Bool}
    {r : Run} {mf : Manifest} (hd : d.Joined) (hm : Fresh d m)
    (hev : d.resultEvidence fact.digestResultId = none)
    (hdurable : d.durable fact.digestRunId fact.owner = some (r, mf))
    (hs : r.state = .waitingRecap) :
    (settleCompletionTx C fact analysisId messageId sha incomplete m).closes False
      (fun x _ => x ≠ .error .storage) d := by
  obtain ⟨hown, -⟩ := durable_evidence hdurable
  obtain ⟨hr, hrun, howner⟩ := ownRun_some hown
  have hmf : d.manifestOf fact.digestRunId = some mf := by
    unfold Db.durable at hdurable
    obtain ⟨r', hr', h⟩ := Option.bind_eq_some_iff.mp hdurable
    obtain ⟨mf', hmf', h⟩ := Option.bind_eq_some_iff.mp h
    split_ifs at h
    cases h
    exact hmf'
  obtain ⟨hmem, hmrun⟩ := manifestOf_some hmf
  have hfree := hd.waiting_free hr hs hmem (hmrun.trans hrun.symm)
  have hids := hd.resultEvidence_none hev
  unfold Tx.closes settleCompletionTx
  simp only [Tx.wp_bind, Tx.wp_mark]
  refine ⟨False.elim, wp_claim False.elim (fun _ => ?_) fun _ => ?_⟩
  · simp [Tx.wp_rollback]
  · simp only [Bool.not_true, Bool.false_eq_true, if_false, Tx.wp_bind, Tx.wp_read]
    refine ⟨False.elim, ?_⟩
    simp only [Db.ownRun, Db.manifestOf] at hown hmf ⊢
    rw [hown]
    simp only [Option.bind_some, hrun, hmf, Option.map_some, Tx.wp_bind]
    refine wp_insertResult_free (fun x hx => ⟨hids x hx, ?_, (hfree x hx).2⟩) ⟨r, hr, hrun⟩
      ⟨mf, hmem, rfl⟩ ?_
    · show x.runId ≠ fact.digestRunId
      rw [← hrun]
      exact (hfree x hx).1
    · simp only [updateRuns, Tx.wp_change, Tx.wp_ite, Tx.wp_throw, Tx.wp_bind, reportCompletion]
      refine ⟨False.elim, by simp, fun _ => ?_⟩
      exact wp_reportOwned_fresh (hm.unused 0).outbox (by simp [ofReport]) fun d' =>
        ⟨False.elim, False.elim, by simp⟩

theorem settleFailureTx_keeps {fact : RecapFailed} {r : Run} {mf : Manifest} (hd : d.Joined)
    (hm : Fresh d m) (hdurable : d.durable fact.digestRunId fact.owner = some (r, mf))
    (hs : r.state = .waitingRecap) :
    (settleFailureTx C fact mf.manifestId messageId sha m).closes False
      (fun x _ => x ≠ .error .storage) d := by
  obtain ⟨hown, m₀, hmem, hmrun, -, -, rfl⟩ := durable_evidence hdurable
  obtain ⟨hr, hrun, -⟩ := ownRun_some hown
  have hfree := hd.waiting_free hr hs hmem (hmrun.trans hrun.symm)
  unfold Tx.closes settleFailureTx
  simp only [Tx.wp_bind, Tx.wp_mark]
  refine ⟨False.elim, wp_claim False.elim (fun _ => ?_) fun _ => ?_⟩
  · simp [Tx.wp_rollback]
  · simp only [Bool.not_true, Bool.false_eq_true, if_false, Tx.wp_bind]
    refine wp_insertResult_free
      (fun x hx => ⟨(hm.unused 0).result x hx, ?_, (hfree x hx).2⟩) ⟨r, hr, hrun⟩
      ⟨m₀, hmem, rfl⟩ ?_
    · show x.runId ≠ fact.digestRunId
      rw [← hrun]
      exact (hfree x hx).1
    · simp only [updateRuns, Tx.wp_change, Tx.wp_ite, Tx.wp_throw, Tx.wp_bind, reportRecapFailure]
      refine ⟨False.elim, by simp, fun _ => ?_⟩
      exact wp_reportOwned_fresh (hm.unused 1).outbox (by simp [ofReport]) fun d' =>
        ⟨False.elim, False.elim, by simp⟩

end

/-! ## The handler -/

/-- the message takes the identity of another row: a new run names the identity of a run, or a
completion names the result of a failure, whose columns are null. -/
def Message.Collides (C : Contracts) (d : Db) : Message → Prop
  | .command (.run messageId c) => C.run.validForPublish c = true ∧
      d.inboxHolds messageId .run (.text c.idempotencyKey) = false ∧ d.runTaken c
  | .completed _ fact => C.completed.validForPublish fact = true ∧ fact.analysisRef.isSome = true ∧
      ∃ x ∈ d.results, x.resultId = fact.digestResultId ∧ (x.recapId = none ∨ x.resultDigest = none)
  | _ => False

section
variable {C : Contracts} {d : Db}

/-- alone on an available database, the program is lost exactly when `P`. -/
abbrev Lost (d : Db) {ε α : Type} (p : Action ε α) (lost : ε) (P : Prop) : Prop :=
  Safe (S := service) Eq (available d) (always fun _ _ => True) p
    (fun r _ _ => r = .error lost ↔ P) d ()

theorem reject_lost {r : Rejection} : Lost d (reject C r) .storage False := by
  refine safe_transaction (available_surrounds d) fun m s' e' hm hs => ?_
  obtain rfl : d = s' := hs
  exact Tx.closes_mono (rejectTx_keeps hm) fun r s' h => ⟨trivial, by simpa using h⟩

/-- a command is lost when its first transaction is: a rejection is not. -/
theorem verdict_lost {t : Moment → Sql IntakeError (Fate Verdict)} {r : Rejection} {P : Prop}
    (ht : ∀ m, Fresh d m → (t m).closes False
      (fun x d' => (x = .error .storage ↔ P) ∧ (x = .ok .refused → d' = d ∧ ¬P)) d) :
    Lost d (transaction t >>= fun v => match v with
      | .outcome o => pure o
      | .refused => reject C r) .storage P := by
  refine (safe_next (S := service) _ _ _).mpr
    (safe_transaction (available_surrounds d) fun m s' e' hm hs => ?_)
  obtain rfl : d = s' := hs
  have hrefused : ∀ d', d' = d ∧ ¬P → Safe (S := service) Eq (available d)
      (always fun _ _ => True) (reject C r) (fun r _ _ => r = .error .storage ↔ P) d' () := by
    rintro d' ⟨rfl, hP⟩
    exact Safe.imp (fun x _ _ hx => by simpa [hP] using hx) reject_lost
  refine Tx.wp_mono _ (fun fate s'' h => ?_)
    (fun x h => ⟨trivial, by simpa using h.1⟩) (ht m hm)
  rcases fate with (o | _) | (o | _)
  · exact ⟨trivial, by simpa using h.1⟩
  · exact ⟨trivial, hrefused s'' (h.2 rfl)⟩
  · exact ⟨trivial, by simpa using h.1⟩
  · exact ⟨trivial, hrefused d (h.2 rfl)⟩

theorem acceptSubscription_lost {messageId : Uuid} {payload : C.Bytes}
    {c : SubscriptionSetRequested} (hc : C.subscription.fromSlice payload = some c) :
    Lost d (acceptSubscription C messageId payload) .storage False := by
  simp only [acceptSubscription, hc]
  split_ifs
  · exact reject_lost
  · refine verdict_lost fun m hm => ?_
    exact Tx.closes_mono (subscriptionTx_keeps hm) fun x d' h => by simpa using h

theorem acceptRun_lost {messageId : Uuid} {payload : C.Bytes} {c : RunRequested}
    (hc : C.run.fromSlice payload = some c)
    (hwindow : C.run.validForPublish c = true → c.windowStart < c.windowEnd) :
    Lost d (acceptRun C messageId payload) .storage
      (Message.Collides C d (.command (.run messageId c))) := by
  simp only [acceptRun, hc]
  split_ifs with hv
  · have hnot : ¬ Message.Collides C d (.command (.run messageId c)) := fun h => by
      rw [h.1] at hv
      cases hv
    exact Safe.imp (fun x _ _ hx => by simpa [hnot] using hx) reject_lost
  · have hv : C.run.validForPublish c = true := by simpa using hv
    refine verdict_lost fun m hm => ?_
    have hiff : Message.Collides C d (.command (.run messageId c)) ↔
        d.inboxHolds messageId .run (.text c.idempotencyKey) = false ∧ d.runTaken c :=
      ⟨fun h => h.2, fun h => ⟨hv, h⟩⟩
    exact Tx.closes_mono (runTx_keeps hm (hwindow hv)) fun x d' h =>
      ⟨h.1.trans hiff.symm, fun hx => ⟨(h.2 hx).1, fun hcol => (h.2 hx).2 hcol.2.2⟩⟩

theorem acceptOccurrence_lost {o : OccurrenceRequest} (hprev : o.previousDueAt < o.dueAt) :
    Lost d (acceptOccurrence C o) .storage False := by
  unfold acceptOccurrence
  split_ifs
  · simp [Lost]
  · refine safe_transaction (available_surrounds d) fun m s' e' hm hs => ?_
    obtain rfl : d = s' := hs
    exact Tx.closes_mono (occurrenceTx_keeps hm hprev) fun r s' h => ⟨trivial, by simpa using h⟩

/-- a read is answered. -/
theorem read_lost {α β : Type} {g : Db → α} {k : α → Action CoordinatorError β} {P : Prop}
    (h : Lost d (k (g d)) .storage P) : Lost d (readDb g >>= k) .storage P := by
  refine safe_read (available_surrounds d) (fun _ _ hf => hf.elim) fun m s' e' _ hs => ?_
  obtain rfl : d = s' := hs
  exact ⟨trivial, h⟩

theorem settleCompletion_lost {messageId : Uuid} {completion : C.Bytes} {fact : RecapCompleted}
    (hd : d.Joined) (hc : C.completed.fromSlice completion = some fact) :
    Lost d (settleCompletion C messageId completion) .storage
      (Message.Collides C d (.completed messageId fact)) := by
  simp only [settleCompletion, hc]
  split_ifs with hv
  · have hnot : ¬ Message.Collides C d (.completed messageId fact) := fun h => by
      rw [h.1] at hv
      cases hv
    simp [hnot]
  rcases ha : fact.analysisRef with _ | analysisId
  · simp [Lost, Message.Collides, ha]
  refine read_lost (read_lost ?_)
  rcases hev : d.resultEvidence fact.digestResultId with _ | stored
  · have hnot : ¬ Message.Collides C d (.completed messageId fact) := by
      rintro ⟨-, -, x, hx, hid, -⟩
      exact hd.resultEvidence_none hev x hx hid
    refine read_lost ?_
    rcases hdu : d.durable fact.digestRunId fact.owner with _ | ⟨r, mf⟩
    · simp [hnot]
    · dsimp only
      split_ifs with hcons
      · simp [hnot]
      · have hs : r.state = .waitingRecap := by
          simp only [RecapCompleted.consistent] at hcons
          by_contra hne
          simp [hne] at hcons
        refine safe_transaction (available_surrounds d) fun m s' e' hm h => ?_
        obtain rfl : d = s' := h
        exact Tx.closes_mono (settleCompletionTx_keeps hd hm hev hdu hs) fun x s' h =>
          ⟨trivial, by simpa [hnot] using h⟩
  · obtain ⟨hmem, hid⟩ := resultEvidence_some hev
    have hiff : Message.Collides C d (.completed messageId fact) ↔
        stored.1.recapId = none ∨ stored.1.resultDigest = none := by
      refine ⟨?_, fun h => ⟨by simpa using hv, by simp [ha], stored.1, hmem, hid, h⟩⟩
      rintro ⟨-, -, x, hx, hxid, h⟩
      obtain rfl := hd.keyed.results.eq hx hmem (hxid.trans hid.symm)
      exact h
    dsimp only
    split_ifs with hnull hm
    · simp only [safe_fail, true_iff]
      exact hiff.mpr (by simpa using hnull)
    · have hnot := mt hiff.mp (by simpa using hnull)
      simp [hnot]
    · have hnot := mt hiff.mp (by simpa using hnull)
      simp [hnot]

theorem settleFailure_lost {messageId : Uuid} {failure : C.Bytes} {fact : RecapFailed}
    (hd : d.Joined) (hc : C.failed.fromSlice failure = some fact) :
    Lost d (settleFailure C messageId failure) .storage False := by
  simp only [settleFailure, hc]
  split_ifs
  · simp [Lost]
  refine read_lost ?_
  rcases hdu : d.durable fact.digestRunId fact.owner with _ | ⟨r, mf⟩
  · simp
  · dsimp only
    split_ifs with hfailed hwait
    · simp
    · simp
    · push Not at hwait
      refine safe_transaction (available_surrounds d) fun m s' e' hm h => ?_
      obtain rfl : d = s' := h
      exact Tx.closes_mono (settleFailureTx_keeps hd hm hdu hwait.1) fun x s' h =>
        ⟨trivial, by simpa using h⟩

theorem intakeDisposition_lost {p : Action IntakeError IntakeOutcome} {P : Prop}
    (h : Lost d p .storage P) :
    Safe (S := service) Eq (available d) (always fun _ _ => True) (intakeDisposition p)
      (fun r _ _ => r = .ok .nak ↔ P) d () := by
  refine (safe_next (S := service) _ _ _).mpr (Safe.imp (fun r d e hr => ?_) h)
  rw [← hr]
  rcases r with (_ | _) | _ <;> simp

theorem coordinatorDisposition_lost {p : Action CoordinatorError IntakeOutcome} {P : Prop}
    (h : Lost d p .storage P) :
    Safe (S := service) Eq (available d) (always fun _ _ => True) (coordinatorDisposition p)
      (fun r _ _ => r = .ok .nak ↔ P) d () := by
  refine (safe_next (S := service) _ _ _).mpr (Safe.imp (fun r d e hr => ?_) h)
  rw [← hr]
  rcases r with (_ | _) | _ <;> simp

/-- a served message is refused for the moment exactly when it collides. -/
theorem served_nak {p : Delivery} {message : Message} (hd : d.Joined)
    (hwindow : ∀ c, C.run.validForPublish c = true → c.windowStart < c.windowEnd)
    (hprev : ∀ o, message = .command (.occurrence o) → o.previousDueAt < o.dueAt)
    (hp : Serves C message p) :
    Safe (S := service) Eq (available d) (always fun _ _ => True) p
      (fun r _ _ => r = .ok .nak ↔ message.Collides C d) d () := by
  cases hp with
  | subscription hc => exact intakeDisposition_lost (acceptSubscription_lost hc)
  | run hc => exact intakeDisposition_lost (acceptRun_lost hc (hwindow _))
  | unreadable => exact intakeDisposition_lost reject_lost
  | occurrence => exact coordinatorDisposition_lost (acceptOccurrence_lost (hprev _ rfl))
  | completed hc => exact coordinatorDisposition_lost (settleCompletion_lost hd hc)
  | failed hc => exact coordinatorDisposition_lost (settleFailure_lost hd hc)

theorem receivedEvent_kind {subject : Subject} {bytes : C.Bytes} {o : OccurrenceRequest} :
    receivedEvent C subject bytes ≠ some (.command (.occurrence o)) := by
  intro h
  unfold receivedEvent at h
  split at h
  · cases h
  split_ifs at h
  split at h
  · obtain ⟨fact, -, h⟩ := Option.bind_eq_some_iff.mp h
    obtain ⟨b, -, h⟩ := Option.bind_eq_some_iff.mp h
    split_ifs at h
    cases h
  · obtain ⟨fact, -, h⟩ := Option.bind_eq_some_iff.mp h
    obtain ⟨b, -, h⟩ := Option.bind_eq_some_iff.mp h
    split_ifs at h
    cases h
  · cases h

/-- an occurrence that is received carries the due times of a valid command. -/
theorem received_occurrence {language : OutputLanguage} {transport : String} {bytes : C.Bytes}
    {o : OccurrenceRequest}
    (h : received C language transport bytes = some (.command (.occurrence o))) :
    ∃ c, C.occurrence.validForPublish c = true ∧ o.previousDueAt = c.previousDueAt ∧
      o.dueAt = c.dueAt := by
  have hcommand : ∃ subject,
      receivedCommand C language subject bytes = some (.command (.occurrence o)) := by
    unfold received at h
    split at h
    · cases h
    · split at h
      · exact ⟨_, h⟩
      · exact ⟨_, h⟩
      · exact ⟨_, h⟩
      · exact absurd h receivedEvent_kind
      · exact absurd h receivedEvent_kind
  obtain ⟨subject, hcommand⟩ := hcommand
  unfold receivedCommand at hcommand
  split at hcommand
  · cases hcommand
  split_ifs at hcommand
  cases subject with
  | subscription =>
    dsimp only [receivedSubscription] at hcommand
    split at hcommand
    · obtain ⟨_, _, _, h⟩ := receivedUnreadable_eq hcommand
      cases h
    · split_ifs at hcommand
      cases hcommand
  | run =>
    dsimp only [receivedRun] at hcommand
    split at hcommand
    · obtain ⟨_, _, _, h⟩ := receivedUnreadable_eq hcommand
      cases h
    · split_ifs at hcommand
      cases hcommand
  | occurrence =>
    obtain ⟨c, -, hcommand⟩ := Option.bind_eq_some_iff.mp hcommand
    obtain ⟨payload, -, hcommand⟩ := Option.bind_eq_some_iff.mp hcommand
    obtain ⟨operationId, -, hcommand⟩ := Option.bind_eq_some_iff.mp hcommand
    obtain ⟨ownerId, -, hcommand⟩ := Option.bind_eq_some_iff.mp hcommand
    split_ifs at hcommand with hv
    cases hcommand
    exact ⟨c, hv.1, rfl, rfl⟩
  | completed => cases hcommand
  | failed => cases hcommand

/-- **On an available database a delivery is refused for the moment exactly when its message
collides**, in every reachable state and for every delivery. -/
theorem handle_nak_iff {S : Setting} (language : OutputLanguage) (transport : String)
    (bytes : C.Bytes) {d' : Db} {answer : DeliveryDisposition} (hd : Reachable C S d)
    (hwindow : ∀ c, C.run.validForPublish c = true → c.windowStart < c.windowEnd)
    (hprev : ∀ c, C.occurrence.validForPublish c = true → c.previousDueAt < c.dueAt)
    (h : Runs (S := service) Eq (available d) (handle C language transport bytes) d ()
      (.ok answer) d' ()) :
    answer = .nak ↔ ∃ message, received C language transport bytes = some message ∧
      message.Collides C d := by
  have hjoined : d.Joined := hd.keeps .empty fun hc => hc.joined
  have hserve := handle_serves (C := C) language transport bytes
  rcases hm : received C language transport bytes with _ | message
  · rw [hm] at hserve
    rw [show handle C language transport bytes = pure .term from hserve] at h
    have hsafe : Safe (S := service) Eq (available d) (always fun _ _ => True)
        (pure .term : Delivery) (fun r _ _ => r = .ok .term) d () := by rw [safe_pure]
    obtain ⟨t, -, hq⟩ := hsafe.runs (fun _ => rfl) Eq.trans h
    cases hq
    simp
  · rw [hm] at hserve
    have hocc : ∀ o, message = .command (.occurrence o) → o.previousDueAt < o.dueAt := by
      rintro o rfl
      obtain ⟨c, hv, h1, h2⟩ := received_occurrence hm
      rw [h1, h2]
      exact hprev c hv
    obtain ⟨t, -, hq⟩ := Safe.runs (fun _ => rfl) Eq.trans
      (served_nak hjoined hwindow hocc hserve) h
    simpa using hq

end

namespace Sample

/-- a command that reuses the identity of the run for another window. -/
def reused : RunRequested := { request with idempotencyKey := "reused", windowStart := 5 }

/-- its delivery while the run waits for its recap. -/
def reuse : Delivery × Db :=
  Prog.advance (answers 8 5000 page) 20
    (handle contracts .ru Subject.run.transport (packet .run 106 (.run reused)), waiting)

theorem waiting_unused {id : Uuid} (h : 5000 ≤ id) : waiting.Unused id := by
  have h1 : ∀ c ∈ waiting.channels, c.channelId < 5000 := by decide +kernel
  have h2 : ∀ s ∈ waiting.subscriptions, s.subscriptionId < 5000 := by decide +kernel
  have h3 : ∀ r ∈ waiting.runs, r.runId < 5000 := by decide +kernel
  have h4 : ∀ x ∈ waiting.results, x.resultId < 5000 := by decide +kernel
  have h5 : ∀ o ∈ waiting.outbox, o.outboxId < 5000 := by decide +kernel
  exact ⟨fun c hc => ((h1 c hc).trans_le h).ne, fun s hs => ((h2 s hs).trans_le h).ne,
    fun r hr => ((h3 r hr).trans_le h).ne, fun x hx => ((h4 x hx).trans_le h).ne,
    fun o ho => ((h5 o ho).trans_le h).ne⟩

theorem answers_available (n : Nat) (q : Question) :
    available waiting () q (answers 8 5000 page n q) () := by
  cases q with
  | moment =>
    refine ⟨rfl, fun a b h => Nat.add_left_cancel h, fun k => waiting_unused ?_⟩
    exact (Nat.le_add_right 5000 _).trans (Nat.le_add_right _ k)
  | _ => trivial

theorem reuse_runs : Runs (S := service) Eq (available waiting) (handle contracts .ru
    Subject.run.transport (packet .run 106 (.run reused))) waiting () (.ok .nak) reuse.2 () :=
  advance_runs answers_available (by decide +kernel)

theorem windows_valid : ∀ c, contracts.run.validForPublish c = true → c.windowStart < c.windowEnd :=
  fun _ h => of_decide_eq_true h

theorem occurrences_valid :
    ∀ c, contracts.occurrence.validForPublish c = true → c.previousDueAt < c.dueAt :=
  fun _ h => of_decide_eq_true h

end Sample

/-- **A run command that reuses an identity is refused for the moment**, at every redelivery. -/
theorem reused_run_nak : ¬ ∀ (C : Contracts) (S : Setting) (language : OutputLanguage)
    (transport : String) (bytes : C.Bytes) (d d' : Db) (answer : DeliveryDisposition),
    (∀ c, C.run.validForPublish c = true → c.windowStart < c.windowEnd) →
    (∀ c, C.occurrence.validForPublish c = true → c.previousDueAt < c.dueAt) →
    Reachable C S d →
    Runs (S := service) Eq (available d) (handle C language transport bytes) d () (.ok answer) d' () →
    answer = .ack ∨ answer = .term := by
  intro h
  have := h _ _ _ _ _ _ _ _ Sample.windows_valid Sample.occurrences_valid Sample.waiting_reachable
    Sample.reuse_runs
  simp at this

theorem reused_run_collides :
    Sample.reuse.1.answer? = some (.ok .nak) ∧
      ∃ message, received Sample.contracts .ru Subject.run.transport
        (Sample.packet .run 106 (.run Sample.reused)) = some message ∧
      message.Collides Sample.contracts Sample.waiting :=
  ⟨by decide +kernel, (handle_nak_iff _ _ _ Sample.waiting_reachable Sample.windows_valid
    Sample.occurrences_valid Sample.reuse_runs).mp rfl⟩

end ChannelDigests
