import ChannelDigests.Worker
import ChannelDigests.Selection

/-!
# The worker refines its changes

Every atomic step of every task leaves the database as it is or is one change of a kind that the
task sends, whatever the other tasks change in between.

* `Task.Verdict`, `Task.Settles`   what more is known of the step and of the end of a fact;
* `discipline`     **the discipline of the worker**;
* `reach_evolves`, `Reachable.keeps`   a reached database evolved from the one before.
-/

namespace ChannelDigests
open Lib Prog

/-! ## What a settled fact leaves -/

/-- the run, its manifest and its result are those of the completion; without an executor the
outcome is that of the recorded completeness. -/
def RecapCompleted.Stands (w : Crew) (fact : RecapCompleted) (d : Db) : Prop :=
  ∃ analysisId incomplete, fact.analysisRef = some analysisId ∧
    (w = .none → incomplete = d.incompleteFlag fact.digestRunId fact.owner) ∧
    ∃ run ∈ d.runs, ∃ manifest ∈ d.manifests,
      run.runId = fact.digestRunId ∧ run.ownerId = fact.owner ∧
      manifest.runId = fact.digestRunId ∧ manifest.ownerId = fact.owner ∧
      manifest.sha256 = fact.manifestDigest ∧ fact.countsAgree manifest ∧
      run.state = (completionOutcome fact.omittedCount incomplete).state ∧
      ∃ createdAt, fact.result analysisId manifest.manifestId fact.owner
        (completionOutcome fact.omittedCount incomplete) createdAt ∈ d.results

/-- the run, its manifest and its result are those of the failure. -/
def RecapFailed.Stands (fact : RecapFailed) (d : Db) : Prop :=
  ∃ resultId, ∃ run ∈ d.runs, ∃ manifest ∈ d.manifests,
    run.runId = fact.digestRunId ∧ run.ownerId = fact.owner ∧
    manifest.runId = fact.digestRunId ∧ manifest.ownerId = fact.owner ∧
    manifest.sha256 = fact.manifestDigest ∧
    run.state = .failed ∧ run.safeFailureClass = some (classifyFailure fact.failureCode).1 ∧
    ∃ createdAt, fact.result resultId manifest.manifestId createdAt ∈ d.results

section
variable {C : Contracts} {K : Message → Prop} {w : Crew} {k : Kind} {d d' : Db}

theorem completionOutcome_terminal (omitted : Nat) (incomplete : Bool) :
    (completionOutcome omitted incomplete).state.terminal = true := by
  unfold completionOutcome
  split_ifs <;> rfl

/-- without an executor no completeness is recorded. -/
theorem Change.not_recorded (h : Change C K w k d d') (hw : w = .none) : k ≠ .recorded := by
  cases h with
  | recorded hn _ => exact absurd hw hn
  | _ => decide

theorem RecapCompleted.Stands.change {fact : RecapCompleted} (h : fact.Stands w d)
    (hc : Change C K w k d d') (hd : d.Keyed) : fact.Stands w d' := by
  obtain ⟨analysisId, incomplete, ha, hflag, run, hrun, manifest, hm, h1, h2, h3, h4, h5, h6, h7,
    createdAt, h8⟩ := h
  obtain ⟨run', hrun', hmove⟩ := hc.run_kept hd.runs hrun
  obtain ⟨manifest', hm', hmm⟩ := hc.manifest_kept hm
  have hstate := hmove.terminal (h7 ▸ completionOutcome_terminal _ _)
  refine ⟨analysisId, incomplete, ha, fun hw => (hflag hw).trans
      (hc.incompleteFlag (hc.not_recorded hw) hd _ _).symm, run', hrun', manifest', hm',
    hmove.runId.trans h1, hmove.ownerId.trans h2, hmm.runId.trans h3, hmm.ownerId.trans h4, hmm.sha256.trans h5, ?_,
    hstate.trans h7, createdAt, ?_⟩
  · exact RecapCompleted.countsAgree_moves hmm h6
  · rw [hmm.manifestId]
    exact hc.result_kept h8

theorem RecapFailed.Stands.change {fact : RecapFailed} (h : fact.Stands d)
    (hc : Change C K w k d d') (hd : d.Keyed) : fact.Stands d' := by
  obtain ⟨resultId, run, hrun, manifest, hm, h1, h2, h3, h4, h5, h6, h7,
    createdAt, h8⟩ := h
  obtain ⟨run', hrun', hmove⟩ := hc.run_kept hd.runs hrun
  obtain ⟨manifest', hm', hmm⟩ := hc.manifest_kept hm
  have hstate := hmove.terminal (by rw [h6]; rfl)
  refine ⟨resultId, run', hrun', manifest', hm', hmove.runId.trans h1, hmove.ownerId.trans h2,
    hmm.runId.trans h3, hmm.ownerId.trans h4, hmm.sha256.trans h5, hstate.trans h6,
    (hmove.failureClass hstate).trans h7, createdAt, ?_⟩
  rw [hmm.manifestId]
  exact hc.result_kept h8

/-- the one run that an update moves. -/
theorem mem_updateWhere_isOpen {runId ownerId : Uuid} {p : RunState → Bool} {u : Run → Run}
    {runs : List Run} (h : runs.countP (Run.isOpen runId ownerId p) = 1) :
    ∃ r ∈ runs, Run.isOpen runId ownerId p r = true ∧
      u r ∈ updateWhere (Run.isOpen runId ownerId p) u runs := by
  obtain ⟨r, hr, hp⟩ := List.countP_pos_iff.mp (h ▸ Nat.one_pos)
  exact ⟨r, hr, hp, mem_updateWhere.mpr ⟨r, hr, .inl ⟨hp, rfl⟩⟩⟩

/-- what a settled completion leaves of its run, its manifest and the results. -/
theorem CompletionSettled.settled {m : Moment} {fact : RecapCompleted}
    {analysisId messageId : Uuid} {sha : Digest} {incomplete : Bool} {run : Run} {manifest : Manifest}
    (h : CompletionSettled m d d' fact analysisId messageId sha incomplete run manifest)
    (hd : d.Keyed) :
    (∃ r ∈ d'.runs, r.runId = fact.digestRunId ∧ r.ownerId = fact.owner ∧
      r.state = (completionOutcome fact.omittedCount incomplete).state) ∧
    (manifest ∈ d'.manifests ∧ manifest.runId = fact.digestRunId ∧ manifest.ownerId = fact.owner ∧
      manifest.sha256 = fact.manifestDigest ∧ fact.countsAgree manifest) ∧
    d'.results = d.results ++ [fact.result analysisId manifest.manifestId fact.owner
      (completionOutcome fact.omittedCount incomplete) m.now] := by
  obtain ⟨mf, hmf, e1, e2, e3, e4⟩ := h.evidence
  obtain ⟨-, hrunId, howner⟩ := ownRun_some h.run_eq
  obtain ⟨hmem, hrun⟩ := manifestOf_some h.manifest_eq
  obtain rfl : mf = manifest := hd.manifestRuns.eq hmf hmem (by rw [e1, hrun, hrunId])
  obtain ⟨ob, -, rfl⟩ := h.effect
  obtain ⟨r, hr, hopen, hmove⟩ := mem_updateWhere_isOpen
    (u := Run.enter (completionOutcome fact.omittedCount incomplete).state m.now) h.once
  simp only [Run.isOpen, Bool.and_eq_true, decide_eq_true_eq] at hopen
  exact ⟨⟨_, hmove, hopen.1.1, hopen.1.2, rfl⟩, ⟨hmf, e1, e2, e3, e4⟩, by rw [howner]⟩

/-- what a settled failure leaves of its run, its manifest and the results. -/
theorem FailureSettled.settled {m : Moment} {fact : RecapFailed} {manifestId messageId : Uuid}
    {sha : Digest} (h : FailureSettled m d d' fact manifestId messageId sha) :
    (∃ r ∈ d'.runs, r.runId = fact.digestRunId ∧ r.ownerId = fact.owner ∧ r.state = .failed ∧
      r.safeFailureClass = some (classifyFailure fact.failureCode).1) ∧
    (∃ manifest ∈ d'.manifests, manifest.runId = fact.digestRunId ∧ manifest.ownerId = fact.owner ∧
      manifest.sha256 = fact.manifestDigest ∧ manifest.manifestId = manifestId) ∧
    d'.results = d.results ++ [fact.result (m.ids 0) manifestId m.now] := by
  obtain ⟨mf, hmf, e1, e2, e3, e4⟩ := h.evidence
  obtain ⟨ob, -, rfl⟩ := h.effect
  obtain ⟨r, hr, hopen, hmove⟩ := mem_updateWhere_isOpen
    (u := Run.fail (classifyFailure fact.failureCode).1 m.now) h.once
  simp only [Run.isOpen, Bool.and_eq_true, decide_eq_true_eq] at hopen
  exact ⟨⟨_, hmove, hopen.1.1, hopen.1.2, rfl, rfl⟩, ⟨mf, hmf, e1, e2, e3, e4⟩, rfl⟩

theorem CompletionSettled.stands {m : Moment} {fact : RecapCompleted}
    {analysisId messageId : Uuid} {sha : Digest} {incomplete : Bool} {run : Run} {manifest : Manifest}
    (h : CompletionSettled m d d' fact analysisId messageId sha incomplete run manifest)
    (ha : fact.analysisRef = some analysisId) (hd : d.Keyed)
    (hflag : w = .none → incomplete = d'.incompleteFlag fact.digestRunId fact.owner) :
    fact.Stands w d' := by
  obtain ⟨⟨r, hr, h1, h2, h3⟩, ⟨hm, e1, e2, e3, e4⟩, hx⟩ := h.settled hd
  exact ⟨analysisId, incomplete, ha, hflag, r, hr, manifest, hm, h1, h2, e1, e2, e3, e4, h3,
    m.now, by simp [hx]⟩

theorem FailureSettled.stands {m : Moment} {fact : RecapFailed} {manifestId messageId : Uuid}
    {sha : Digest} (h : FailureSettled m d d' fact manifestId messageId sha) : fact.Stands d' := by
  obtain ⟨⟨r, hr, h1, h2, h3, h4⟩, ⟨mf, hm, e1, e2, e3, rfl⟩, hx⟩ := h.settled
  exact ⟨m.ids 0, r, hr, mf, hm, h1, h2, e1, e2, e3, h3, h4, m.now, by simp [hx]⟩

end

/-! ## Programs make their changes -/

/-- one step of `settle_completion`. -/
def CompletionStep (C : Contracts) (messageId : Uuid) (completion : C.Bytes) (d d' : Db)
    (o : Option (Except CoordinatorError IntakeOutcome)) : Prop :=
  (d' = d ∧ o ≠ some (.ok .applied)) ∨ (o = some (.ok .applied) ∧
    ∃ fact analysisId m incomplete run manifest, C.completed.fromSlice completion = some fact ∧
      fact.analysisRef = some analysisId ∧
      CompletionSettled m d d' fact analysisId messageId (C.bytesDigest completion) incomplete run
        manifest)

/-- one step of `settle_failure`. -/
def FailureStep (C : Contracts) (messageId : Uuid) (failure : C.Bytes) (d d' : Db)
    (o : Option (Except CoordinatorError IntakeOutcome)) : Prop :=
  (d' = d ∧ o ≠ some (.ok .applied)) ∨ (o = some (.ok .applied) ∧
    ∃ fact m manifestId, C.failed.fromSlice failure = some fact ∧
      FailureSettled m d d' fact manifestId messageId (C.bytesDigest failure))

/-- the ending of a fact that was applied. -/
def Ending.applied : Ending := .coordinator (.ok .applied)

namespace Task
variable {C : Contracts}

/-- what one step of a direct call of a fact is: nothing, or the step that applies the fact. -/
def Verdict (t : Task C) (d d' : Db) (o : Option (Except Empty Ending)) : Prop :=
  match t with
  | .settleCompletion messageId completion =>
    ∃ x, o = Option.map (fun r => .ok (.coordinator r)) x ∧
      CompletionStep C messageId completion d d' x
  | .settleFailure messageId failure =>
    ∃ x, o = Option.map (fun r => .ok (.coordinator r)) x ∧ FailureStep C messageId failure d d' x
  | _ => True

/-- what stands once a direct call of a fact was applied. -/
def Settles (w : Crew) (t : Task C) (r : Except Empty Ending) (d : Db) : Prop :=
  r = .ok .applied → match t with
    | .settleCompletion _ completion =>
      ∃ fact, C.completed.fromSlice completion = some fact ∧ fact.Stands w d
    | .settleFailure _ failure => ∃ fact, C.failed.fromSlice failure = some fact ∧ fact.Stands d
    | _ => True

end Task

section
variable {C : Contracts} {S : Setting} {E : Type} {env : E → (q : Question) → q.Answer → E → Prop}
  {faulty : Prop} {s : Db} {e : E}

theorem Setting.Makes.refl (t : Task C) (d : Db) : S.Makes t d d := .inl rfl

theorem Setting.Makes.change {t : Task C} {k : Kind} {d d' : Db} (hk : t.Sends k)
    (h : Change C S.sent S.crew k d d') : S.Makes t d d' := .inr ⟨k, hk, h⟩

theorem Setting.Others.surrounds {t : Task C}
    (hf : ∀ e m e', env e .moment m e' → m.fuse ≠ none → faulty) :
    Surrounds (S.Others C t) env faulty :=
  ⟨fun _ => .refl, Relation.ReflTransGen.trans, hf⟩

/-- a task that handles a message sends every kind that is not the executor's. -/
theorem Task.sends_delivery {t : Task C} (ht : t.isDelivery = true) {k : Kind}
    (hk : k.isExecutor = false) : t.Sends k :=
  ⟨fun h => by simp [hk] at h, fun _ => ht⟩

/-- every task sends the kinds that belong to nobody. -/
theorem Task.sends_common (t : Task C) {k : Kind} (he : k.isExecutor = false)
    (hd : k.isDelivery = false) : t.Sends k :=
  ⟨fun h => by simp [he] at h, fun h => by simp [hd] at h⟩

theorem Task.sends_executor {t : Task C} (ht : t.isExecutor = true) {k : Kind}
    (hd : k.isDelivery = false) : t.Sends k :=
  ⟨fun _ => ht, fun h => by simp [hd] at h⟩

section
variable {t : Task C} (w : Surrounds (S.Others C t) env faulty) (ht : t.isDelivery = true)
include w ht

theorem reject_makes {c : Command} (hc : c.subject ≠ .occurrence) (hs : S.sent (.command c))
    (sha : Digest) (reason : RejectionReason) :
    Safe (S := service) (S.Others C t) env (always (S.Makes t)) (reject C (c.rejection sha reason))
      (fun _ _ _ => True) s e :=
  reject_rule w (Q := fun _ _ => True) (fun _ _ _ _ => ⟨.inl rfl, trivial⟩)
    (fun _ _ _ => ⟨.inl rfl, trivial⟩)
    fun _ _ _ _ h => ⟨.change (t.sends_delivery ht rfl) (.rejection hs hc h), trivial⟩

theorem acceptSubscription_makes {messageId : Uuid} {payload : C.Bytes}
    (hs : ∀ c, C.subscription.fromSlice payload = some c →
      S.sent (.command (.subscription messageId c))) :
    Safe (S := service) (S.Others C t) env (always (S.Makes t))
      (acceptSubscription C messageId payload) (fun _ _ _ => True) s e := by
  rcases hc : C.subscription.fromSlice payload with _ | c
  · simp [acceptSubscription, hc]
  · exact acceptSubscription_rule w hc (Q := fun _ _ => True) (fun _ _ => .inl rfl)
      (fun _ _ _ _ => ⟨.inl rfl, trivial⟩) (fun _ _ _ => ⟨.inl rfl, trivial⟩)
      (fun _ _ _ _ _ h => ⟨.change (t.sends_delivery ht rfl)
        (.rejection (hs c hc) (by simp [Command.subject]) h), trivial⟩)
      fun _ _ _ _ h => ⟨.change (t.sends_delivery ht rfl) (.subscription (hs c hc) h), trivial⟩

theorem acceptRun_makes {messageId : Uuid} {payload : C.Bytes}
    (hs : ∀ c, C.run.fromSlice payload = some c → S.sent (.command (.run messageId c))) :
    Safe (S := service) (S.Others C t) env (always (S.Makes t))
      (acceptRun C messageId payload) (fun _ _ _ => True) s e := by
  rcases hc : C.run.fromSlice payload with _ | c
  · simp [acceptRun, hc]
  · exact acceptRun_rule w hc (Q := fun _ _ => True) (fun _ _ => .inl rfl)
      (fun _ _ _ _ => ⟨.inl rfl, trivial⟩) (fun _ _ _ => ⟨.inl rfl, trivial⟩)
      (fun _ _ _ _ _ h => ⟨.change (t.sends_delivery ht rfl)
        (.rejection (hs c hc) (by simp [Command.subject]) h), trivial⟩)
      fun _ _ _ _ h => ⟨.change (t.sends_delivery ht rfl)
        (h.elim (.created (hs c hc)) (.repeated (hs c hc))), trivial⟩

theorem acceptOccurrence_makes {o : OccurrenceRequest} (hs : S.sent (.command (.occurrence o))) :
    Safe (S := service) (S.Others C t) env (always (S.Makes t)) (acceptOccurrence C o)
      (fun _ _ _ => True) s e :=
  acceptOccurrence_rule w (Q := fun _ _ => True) trivial (fun _ _ _ _ => ⟨.inl rfl, trivial⟩)
    (fun _ _ _ => ⟨.inl rfl, trivial⟩)
    fun _ _ _ _ h => ⟨.change (t.sends_delivery ht rfl) (.occurrence hs h), trivial⟩

theorem settleCompletion_makes {messageId : Uuid} {completion : C.Bytes} (hd : s.Keyed)
    (hs : ∀ fact, C.completed.fromSlice completion = some fact →
      S.sent (.completed messageId fact)) :
    Safe (S := service) (S.Others C t) env
      (fun d d' o => S.Makes t d d' ∧ CompletionStep C messageId completion d d' o)
      (settleCompletion C messageId completion)
      (fun r d _ => r = .ok .applied →
        ∃ fact, C.completed.fromSlice completion = some fact ∧ fact.Stands S.crew d) s e := by
  have still : ∀ {d : Db} {o : Option (Except CoordinatorError IntakeOutcome)},
      o ≠ some (.ok .applied) → S.Makes t d d ∧ CompletionStep C messageId completion d d o :=
    fun h => ⟨.inl rfl, .inl ⟨rfl, h⟩⟩
  refine settleCompletion_rule w (Q := fun r d => r = .ok .applied →
      ∃ fact, C.completed.fromSlice completion = some fact ∧ fact.Stands S.crew d) (by simp)
    (fun x s' _ => ⟨still (by simp), by simp⟩) (fun s' _ => still (by simp))
    (fun _ _ _ _ _ _ _ _ _ _ _ => ⟨still (by simp), by simp⟩) ?_
  intro fact analysisId m s₁ s₂ s₃ s₄ r mf hfact ha h₁ h₂ h₃ h₄ hnone hdu hcons
  have hd₄ := (w.trans (w.trans (w.trans h₁ h₂) h₃) h₄).keyed hd
  simp only [RecapCompleted.consistent, Bool.and_eq_true, decide_eq_true_eq] at hcons
  obtain ⟨-, m₀, hm₀, e1, e2, e3, rfl⟩ := durable_evidence hdu
  have hev : s₄.evidence fact.digestRunId fact.owner fact.manifestDigest fact.countsAgree := by
    refine h₄.keeps (I := fun d =>
      d.evidence fact.digestRunId fact.owner fact.manifestDigest fact.countsAgree)
      (fun _ hc => hc.evidence RecapCompleted.countsAgree_moves) ?_
    exact ⟨m₀, hm₀, e1, e2, hcons.1.1.2.symm, hcons.1.2, hcons.2⟩
  -- without an executor nothing records a completeness between the two reads.
  have hflag : S.crew = .none → s₁.incompleteFlag fact.digestRunId fact.owner =
      s₄.incompleteFlag fact.digestRunId fact.owner := fun hw =>
    ((w.trans (w.trans h₂ h₃) h₄).keeps (I := fun d => d.Keyed ∧
      s₁.incompleteFlag fact.digestRunId fact.owner =
        d.incompleteFlag fact.digestRunId fact.owner) (fun _ hc hI =>
          ⟨hc.keyed hI.1, hI.2.trans (hc.incompleteFlag (hc.not_recorded hw) hI.1 _ _).symm⟩)
      ⟨h₁.keyed hd, rfl⟩).2
  refine settleCompletionTx_closes hev (fun x => ⟨still (by simp), by simp⟩)
    (fun _ => ⟨still (by simp), by simp⟩) fun d' run manifest hset => ?_
  have hc : Change C S.sent S.crew .completion s₄ d' := .completion (hs fact hfact) ha hset hflag
  refine ⟨⟨.change (t.sends_delivery ht rfl) hc, .inr ⟨rfl, fact, analysisId, m, _, run, manifest,
    hfact, ha, hset⟩⟩, fun _ => ⟨fact, hfact, hset.stands ha hd₄ fun hw => ?_⟩⟩
  exact (hflag hw).trans (hc.incompleteFlag (by decide) hd₄ _ _).symm

theorem settleFailure_makes {messageId : Uuid} {failure : C.Bytes}
    (hs : ∀ fact, C.failed.fromSlice failure = some fact → S.sent (.failed messageId fact)) :
    Safe (S := service) (S.Others C t) env
      (fun d d' o => S.Makes t d d' ∧ FailureStep C messageId failure d d' o)
      (settleFailure C messageId failure)
      (fun r d _ => r = .ok .applied →
        ∃ fact, C.failed.fromSlice failure = some fact ∧ fact.Stands d) s e := by
  have still : ∀ {d : Db} {o : Option (Except CoordinatorError IntakeOutcome)},
      o ≠ some (.ok .applied) → S.Makes t d d ∧ FailureStep C messageId failure d d o :=
    fun h => ⟨.inl rfl, .inl ⟨rfl, h⟩⟩
  refine settleFailure_rule w (Q := fun r d => r = .ok .applied →
      ∃ fact, C.failed.fromSlice failure = some fact ∧ fact.Stands d) (by simp)
    (fun x s' _ => ⟨still (by simp), by simp⟩) (fun s' _ => still (by simp))
    (fun _ _ _ _ _ _ _ _ => ⟨still (by simp), by simp⟩) ?_
  intro fact m s₁ s₂ r mf hfact h₁ h₂ hdu hr hsha
  obtain ⟨-, m₀, hm₀, e1, e2, e3, rfl⟩ := durable_evidence hdu
  have hev : s₂.evidence fact.digestRunId fact.owner fact.manifestDigest
      (·.manifestId = m₀.manifestId) := by
    refine h₂.keeps (I := fun d => d.evidence fact.digestRunId fact.owner fact.manifestDigest
      (·.manifestId = m₀.manifestId))
      (fun _ hc => hc.evidence fun hm h => hm.manifestId.trans h) ?_
    exact ⟨m₀, hm₀, e1, e2, hsha.symm, rfl⟩
  refine settleFailureTx_closes hev (fun x => ⟨still (by simp), by simp⟩)
    (fun _ => ⟨still (by simp), by simp⟩) fun d' hset => ?_
  exact ⟨⟨.change (t.sends_delivery ht rfl) (.recapFailure (hs fact hfact) hset),
    .inr ⟨rfl, fact, m, m₀.manifestId, hfact, hset⟩⟩, fun _ => ⟨fact, hfact, hset.stands⟩⟩

theorem served_makes {p : Delivery} {message : Message} (hp : Serves C message p)
    (hs : S.sent message) (hd : s.Keyed) :
    Safe (S := service) (S.Others C t) env (always (S.Makes t)) p (fun _ _ _ => True) s e := by
  have intake : ∀ {p : Action IntakeError IntakeOutcome},
      Safe (S := service) (S.Others C t) env (always (S.Makes t)) p (fun _ _ _ => True) s e →
      Safe (S := service) (S.Others C t) env (always (S.Makes t)) (intakeDisposition p)
        (fun _ _ _ => True) s e := fun h =>
    (safe_next (S := service) _ _ _).mpr (Safe.imp (fun r s e _ => by
      rcases r with x | o
      · cases x <;> trivial
      · trivial) h)
  have coordinator : ∀ {p : Action CoordinatorError IntakeOutcome},
      Safe (S := service) (S.Others C t) env (always (S.Makes t)) p (fun _ _ _ => True) s e →
      Safe (S := service) (S.Others C t) env (always (S.Makes t)) (coordinatorDisposition p)
        (fun _ _ _ => True) s e := fun h =>
    (safe_next (S := service) _ _ _).mpr (Safe.imp (fun r s e _ => by
      rcases r with x | o
      · cases x <;> trivial
      · trivial) h)
  cases hp with
  | subscription hc =>
    exact intake (acceptSubscription_makes w ht fun c h => by cases hc.symm.trans h; exact hs)
  | run hc => exact intake (acceptRun_makes w ht fun c h => by cases hc.symm.trans h; exact hs)
  | @unreadable messageId kind sha operationId ownerId =>
    have hk : (Command.unreadable messageId kind operationId ownerId).subject ≠ .occurrence := by
      cases kind <;> nofun
    exact intake (reject_makes w ht hk hs sha .commandInvalid)
  | occurrence => exact coordinator (acceptOccurrence_makes w ht hs)
  | completed hc =>
    refine coordinator (Safe.mono (fun _ _ => id) (fun _ _ _ _ => id) (fun _ _ _ h => h.1)
      (fun _ _ _ _ => trivial) (settleCompletion_makes w ht hd fun c h => ?_))
    cases hc.symm.trans h
    exact hs
  | failed hc =>
    refine coordinator (Safe.mono (fun _ _ => id) (fun _ _ _ _ => id) (fun _ _ _ h => h.1)
      (fun _ _ _ _ => trivial) (settleFailure_makes w ht fun c h => ?_))
    cases hc.symm.trans h
    exact hs

end

/-! ## Tasks without a message -/

section
variable {t : Task C} (w : Surrounds (S.Others C t) env faulty)
include w

theorem reapOnce_makes {deadline : Int} {now : Instant} :
    Safe (S := service) (S.Others C t) env (always (S.Makes t)) (reapOnce C deadline now)
      (fun _ _ _ => True) s e :=
  safe_transaction w fun _ _ _ _ _ => reapTx_closes (fun _ => ⟨.inl rfl, trivial⟩)
    fun _ _ h => ⟨.change (t.sends_common rfl rfl) (.reaped h), trivial⟩

theorem sweepOnce_makes {bodyDays : Nat} {now : Instant} :
    Safe (S := service) (S.Others C t) env (always (S.Makes t)) (sweepOnce bodyDays now)
      (fun _ _ _ => True) s e := by
  refine (safe_bind (S := service) _ _ _).mpr (safe_change w
    (fun _ _ _ => ⟨.inl rfl, fun _ => trivial⟩) fun _ _ _ _ _ =>
      ⟨.change (t.sends_common rfl rfl) .bodies, (safe_bind (S := service) _ _ _).mpr (safe_change w
        (fun _ _ _ => ⟨.inl rfl, fun _ => trivial⟩) fun _ _ _ _ _ =>
          ⟨.change (t.sends_common rfl rfl) .manifestTexts, trivial⟩)⟩)

theorem publishRows_makes (rows : List OutboxMessage) (refused : Bool) :
    Safe (S := service) (S.Others C t) env (always (S.Makes t)) (publishRows C rows refused)
      (fun _ _ _ => True) s e := by
  induction rows generalizing refused s e with
  | nil => trivial
  | cons row rows ih =>
    unfold publishRows
    split
    · trivial
    · refine (safe_bind (S := service) _ _ _).mpr fun s' _ acknowledged e' _ => ?_
      refine (safe_ite (S := service) (acknowledged = true) _ _ _).mpr ⟨fun _ => ?_, fun _ => ?_⟩
      · exact (safe_bind (S := service) _ _ _).mpr (safe_change w
          (fun _ _ _ => ⟨.inl rfl, fun _ => trivial⟩) fun _ _ _ _ _ =>
            ⟨.change (t.sends_common rfl rfl) .published, ih refused⟩)
      · exact (safe_bind (S := service) _ _ _).mpr (safe_change w
          (fun _ _ _ => ⟨.inl rfl, fun _ => trivial⟩) fun _ _ _ _ _ =>
            ⟨.change (t.sends_common rfl rfl) .backedOff, ih true⟩)

theorem publishOutbox_makes :
    Safe (S := service) (S.Others C t) env (always (S.Makes t)) (publishOutbox C)
      (fun _ _ _ => True) s e := by
  refine safe_read w (fun _ _ _ => ⟨.inl rfl, fun _ => trivial⟩) fun _ _ _ _ _ => ⟨.inl rfl, ?_⟩
  refine (safe_bind (S := service) _ _ _).mpr (Safe.imp (fun r s' e' _ => ?_) (publishRows_makes w _ _))
  rcases r with x | refused
  · trivial
  · cases refused <;> trivial

theorem register_makes {schedule : Option ScheduleConfig} :
    Safe (S := service) (S.Others C t) env (always (S.Makes t))
      (enqueueScheduleRegistration C schedule) (fun _ _ _ => True) s e := by
  unfold enqueueScheduleRegistration
  split
  · trivial
  · split_ifs
    · trivial
    · exact safe_transaction w fun _ _ _ _ _ => registrationTx_closes
        (fun _ => ⟨.inl rfl, trivial⟩) (fun _ => ⟨.inl rfl, trivial⟩)
        fun _ h => ⟨.change (t.sends_common rfl rfl) (.registration rfl h), trivial⟩

end

/-! ## The executor -/

/-- what a tick knows of the run it works on. -/
structure Working (S : Setting) (run : PendingRun) (d : Db) : Prop where
  keyed : d.Keyed
  owned : d.holdsRun run.runId run.ownerId run.operationId
  unsettled : S.crew ≠ .many →
    ∀ r ∈ d.runs, r.runId = run.runId → r.state.pending = true ∨ r.state = .failed

/-- what a tick knows once it has selected: the selected messages are not withdrawn. -/
structure Selected (S : Setting) (sourceCount : Nat) (p : Proceeding) (d : Db) : Prop where
  working : Working S p.run d
  live : S.crew ≠ .many → ∀ s ∈ (p.selection sourceCount).sources, d.live s.channelId s.messageId

theorem Working.change {run : PendingRun} {k : Kind} {d d' : Db} (h : Working S run d)
    (hc : Change C S.sent S.crew k d d')
    (hk : S.crew ≠ .many → k ≠ .empty ∧ k ≠ .manifest) : Working S run d' where
  keyed := hc.keyed h.keyed
  owned := hc.holdsRun h.keyed.runs h.owned
  unsettled hw r' hr' hid := by
    obtain ⟨he, hm⟩ := hk hw
    rcases hc.run_origin h.keyed.runs hr' with ⟨r, hr, hmove⟩ | ⟨hfresh, hstate, -⟩
    · exact hmove.pending_or_failed he hm (h.unsettled hw r hr (hmove.runId.symm.trans hid))
    · obtain ⟨r, hr, hrun, -⟩ := h.owned
      exact absurd (hrun.trans hid.symm) (hfresh r hr)

/-- beside an executor that works alone no change is an executor's. -/
theorem Setting.Allows.alone {t : Task C} {k : Kind} (h : S.Allows t k)
    (ht : t.isExecutor = true) (hw : S.crew ≠ .many) : k.isExecutor = false := by
  refine h.1 ?_
  rcases hcrew : S.crew with _ | _ | _
  · exact .inl rfl
  · exact .inr ⟨rfl, ht⟩
  · exact absurd hcrew hw

section
variable {t : Task C} (ht : t.isExecutor = true)
include ht

theorem Working.other {run : PendingRun} {d d' : Db} (h : S.Others C t d d')
    (hd : Working S run d) : Working S run d' :=
  h.keeps (fun hp hc hI => hI.change hc fun hw => by
    have := hp.alone ht hw
    constructor <;> rintro rfl <;> cases this) hd

theorem Selected.other {sourceCount : Nat} {p : Proceeding} {d d' : Db} (h : S.Others C t d d')
    (hd : Selected S sourceCount p d) : Selected S sourceCount p d' where
  working := hd.working.other ht h
  live hw s hs := h.keeps (I := fun d => d.live s.channelId s.messageId) (fun hp hc => hc.live (by
    have := hp.alone ht hw
    rintro rfl
    cases this)) (hd.live hw s hs)

theorem Working.makes {run : PendingRun} {k : Kind} {d d' : Db} (h : Working S run d)
    (hc : Change C S.sent S.crew k d d') (hd : k.isDelivery = false) (he : k ≠ .empty)
    (hm : k ≠ .manifest) : S.Makes t d d' ∧ Working S run d' :=
  ⟨.change (t.sends_executor ht hd) hc, h.change hc fun _ => ⟨he, hm⟩⟩

/-- the obligations of a tick of the worker. -/
theorem tickRule (w : Surrounds (S.Others C t) env faulty) (hcrew : S.crew ≠ .none)
    (sourceCount : Nat) :
    TickRule C sourceCount (S.Others C t) (S.Makes t) env faulty Db.Keyed (Working S)
      (Selected S sourceCount) (fun _ _ => True) where
  walk run :=
    { surrounds := w
      other := fun h => Working.other ht h
      idle := fun _ => .inl rfl
      step := fun hI hstep => by
        cases hstep with
        | lease row => exact hI.makes ht .lease rfl (by decide) (by decide)
        | append o id h => exact hI.makes ht (.append h) rfl (by decide) (by decide)
        | withdrawal c g now => exact hI.makes ht .withdrawal rfl (by decide) (by decide) }
  before h hN := h.keyed hN
  lost _ := trivial
  idle _ := trivial
  pick {now d run} hN hpick := by
    obtain ⟨r, hr, rfl⟩ := Option.map_eq_some_iff.mp hpick
    have hmem := (List.perm_insertionSort _ _).mem_iff.mp (List.mem_of_mem_head? hr)
    rw [List.mem_filter, Bool.and_eq_true] at hmem
    refine ⟨hN, ⟨r, hmem.1, rfl, rfl, rfl⟩, fun _ o ho hid => .inl ?_⟩
    rw [hN.runs.eq ho hmem.1 hid]
    exact hmem.2.1
  begun hI h := hI.makes ht (.acquiring h) rfl (by decide) (by decide)
  dropped _ := trivial
  taken _ := trivial
  deferred _ := trivial
  unavailable hI h := ⟨(hI.makes ht (.failed h) rfl (by decide) (by decide)).1, trivial⟩
  record {p d} _ hseen _ h := by
    have hI := hseen.other ht h
    have hc : Change C S.sent S.crew .recorded d
        (d.record p.run.runId (p.incomplete sourceCount)) := .recorded hcrew hI.unsettled
    obtain ⟨hM, hI'⟩ := hI.makes ht hc rfl (by decide) (by decide)
    refine ⟨hM, hI', fun hw s hs => ?_⟩
    have hlive : d.live s.channelId s.messageId := h.keeps
      (I := fun d => d.live s.channelId s.messageId) (fun hp hc => hc.live (by
        have := hp.alone ht hw
        rintro rfl
        cases this)) (selectSources_live hs)
    exact hlive
  recorded h hJ := Selected.other ht h hJ
  stopped _ := trivial
  replayed _ _ := trivial
  failed hJ h := ⟨(hJ.working.makes ht (.failed h) rfl (by decide) (by decide)).1, trivial⟩
  empty _ _ h := ⟨.change (t.sends_executor ht rfl) (.empty h), trivial⟩
  owned hJ := hJ.working.owned
  commit {m p manifest request manifestId d d'} hJ hb h := by
    refine ⟨.change (t.sends_executor ht rfl) (.manifest h fun hw l hl => ?_), trivial⟩
    rw [(build_ok hb).messages_eq, mem_messagesOf] at hl
    obtain ⟨s, hs, rfl⟩ := hl
    exact hJ.live hw s hs

theorem executeOne_makes (w : Surrounds (S.Others C t) env faulty) (hcrew : S.crew ≠ .none)
    {sourceCount : Nat} (hd : s.Keyed) :
    Safe (S := service) (S.Others C t) env (always (S.Makes t)) (executeOne C sourceCount)
      (fun _ _ _ => True) s e := by
  refine (safe_bind (S := service) _ _ _).mpr (Safe.imp (fun r s' e' _ => ?_)
    (tick_safe (tickRule ht w hcrew sourceCount) hd))
  rcases r with x | k
  · trivial
  · cases k <;> trivial

end

end

/-! ## The discipline -/

theorem safe_ending {E ε α : Type} {R : Db → Db → Prop} {env : E → (q : Question) → q.Answer → E → Prop}
    {f : Except ε α → Ending} {p : Action ε α} {G : Db → Db → Option (Except Empty Ending) → Prop}
    {Q : Except Empty Ending → Db → E → Prop} {s : Db} {e : E} :
    Safe (S := service) R env G (ending f p) Q s e ↔
      Safe (S := service) R env (fun d d' o => G d d' (o.map fun r => .ok (f r))) p
        (fun r => Q (.ok (f r))) s e := by
  refine (safe_next (S := service) _ _ _).trans (iff_of_eq ?_)
  congr 1
  funext d d' o
  cases o <;> rfl

section
variable (C : Contracts) (S : Setting)

/-- the program of a task makes the task's changes, with the verdict of a fact. -/
theorem body_safe {ts : List (Thread service (Task C) Empty Ending)} {t : Task C} {d : Db}
    (hstart : (worker C S).starts ts t) (hd : d.Keyed) :
    Safe (S := service) (S.Others C t) ((worker C S).env t)
      (fun d d' o => S.Makes t d d' ∧ t.Verdict d d' o) ((worker C S).body t)
      (fun r d _ => t.Settles S.crew r d) d () := by
  have w : Surrounds (S.Others C t) ((worker C S).env t) True :=
    Setting.Others.surrounds fun _ _ _ _ _ => trivial
  have sent := hstart.1
  have plain : ∀ {ε α : Type} {f : Except ε α → Ending} {p : Action ε α},
      (∀ d d' o, t.Verdict d d' o) → (∀ r d, t.Settles S.crew r d) →
      Safe (S := service) (S.Others C t) ((worker C S).env t) (always (S.Makes t)) p
        (fun _ _ _ => True) d () →
      Safe (S := service) (S.Others C t) ((worker C S).env t)
        (fun d d' o => S.Makes t d d' ∧ t.Verdict d d' o) (ending f p)
        (fun r d _ => t.Settles S.crew r d) d () := fun hv hp h =>
    safe_ending.mpr (Safe.mono (fun _ _ => id) (fun _ _ _ _ => id)
      (fun _ _ _ hm => ⟨hm, hv _ _ _⟩) (fun _ _ _ _ => hp _ _) h)
  cases t with
  | deliver calm transport bytes =>
    refine plain (fun _ _ _ => trivial) (fun _ _ _ => trivial) ?_
    have hserve := handle_serves (C := C) S.language transport bytes
    rcases hm : received C S.language transport bytes with _ | message
    · rw [hm] at hserve
      rw [show handle C S.language transport bytes = pure .term from hserve]
      trivial
    · rw [hm] at hserve
      exact served_makes w rfl hserve (sent message hm) hd
  | acceptSubscription messageId payload =>
    exact plain (fun _ _ _ => trivial) (fun _ _ _ => trivial)
      (acceptSubscription_makes w rfl fun c hc => sent _ (by simp [Task.message, hc]))
  | acceptRun messageId payload =>
    exact plain (fun _ _ _ => trivial) (fun _ _ _ => trivial)
      (acceptRun_makes w rfl fun c hc => sent _ (by simp [Task.message, hc]))
  | acceptOccurrence o =>
    exact plain (fun _ _ _ => trivial) (fun _ _ _ => trivial)
      (acceptOccurrence_makes w rfl (sent _ rfl))
  | settleCompletion messageId completion =>
    refine safe_ending.mpr (Safe.mono (fun _ _ => id) (fun _ _ _ _ => id)
      (fun _ _ o h => ⟨h.1, o, rfl, h.2⟩) (fun r _ _ h hr => h ?_)
      (settleCompletion_makes w rfl hd fun c hc => sent _ (by simp [Task.message, hc])))
    simpa [Ending.applied] using hr
  | settleFailure messageId failure =>
    refine safe_ending.mpr (Safe.mono (fun _ _ => id) (fun _ _ _ _ => id)
      (fun _ _ o h => ⟨h.1, o, rfl, h.2⟩) (fun r _ _ h hr => h ?_)
      (settleFailure_makes w rfl fun c hc => sent _ (by simp [Task.message, hc])))
    simpa [Ending.applied] using hr
  | executeOne sourceCount =>
    exact plain (fun _ _ _ => trivial) (fun _ _ _ => trivial)
      (executeOne_makes rfl w (fun hc => by cases hstart.2.1 hc) hd)
  | reapOnce deadline now =>
    exact plain (fun _ _ _ => trivial) (fun _ _ _ => trivial) (reapOnce_makes w)
  | sweepOnce bodyDays now =>
    exact plain (fun _ _ _ => trivial) (fun _ _ _ => trivial) (sweepOnce_makes w)
  | publishOutbox => exact plain (fun _ _ _ => trivial) (fun _ _ _ => trivial) (publishOutbox_makes w)
  | register schedule =>
    exact plain (fun _ _ _ => trivial) (fun _ _ _ => trivial) (register_makes w)

/-- **The discipline of the worker**: every step of every task is a change that the task sends. -/
def discipline : Discipline (worker C S) where
  Inv := Db.Keyed
  rely := S.Others C
  guar t d d' o := S.Makes t d d' ∧ t.Verdict d d' o
  post t r d := t.Settles S.crew r d
  Beside := S.Beside
  beside_symm h := h.symm
  beside_starts h u hu hr := h.2.2 u hu hr
  rely_refl _ _ := .refl
  rely_trans h h' := Relation.ReflTransGen.trans h h'
  body_safe hstart hd := ChannelDigests.body_safe C S hstart hd
  guar_inv {t d d' o} hd h := by
    rcases h.1 with rfl | ⟨k, -, hc⟩
    · exact hd
    · exact hc.keyed hd
  guar_rely {t u d d' o} hb _ h := by
    rcases h.1 with rfl | ⟨k, hk, hc⟩
    · exact .refl
    · exact .single ⟨k, Setting.Beside.allows S hb hk, hc⟩
  post_stable {t u d d' o r} hd h hp := by
    rcases h.1 with rfl | ⟨k, -, hc⟩
    · exact hp
    · intro hr
      have hp := hp hr
      revert hp
      cases u with
      | settleCompletion id bytes => exact fun ⟨fact, hf, hst⟩ => ⟨fact, hf, hst.change hc hd⟩
      | settleFailure id bytes => exact fun ⟨fact, hf, hst⟩ => ⟨fact, hf, hst.change hc hd⟩
      | _ => exact fun _ => trivial

variable {C S}

/-- a pool reached from a sound one is sound, and its database evolved from the first one. -/
theorem reach_evolves {P P' : Pool service (Task C) Empty Ending}
    (h : Pool.Reach (worker C S) P P') (hP : (discipline C S).Sound P) :
    (discipline C S).Sound P' ∧ Evolves C S.sent S.crew (fun _ => True) P.state P'.state := by
  induction h with
  | refl => exact ⟨hP, .refl⟩
  | tail _ hm ih =>
    obtain ⟨hsound, hev⟩ := ih
    refine ⟨hsound.move hm, ?_⟩
    rcases hsound.change hm with he | ⟨t, o, hg⟩
    · rw [he]
      exact hev
    · rcases hg.1 with he | ⟨k, -, hc⟩
      · rw [he]
        exact hev
      · exact hev.tail ⟨k, trivial, hc⟩

/-- a pool reached from the empty one is sound. -/
theorem reach_sound {P : Pool service (Task C) Empty Ending}
    (h : Pool.Reach (worker C S) ⟨[], Db.empty⟩ P) : (discipline C S).Sound P :=
  Discipline.sound_reach (Discipline.sound_empty Db.Keyed.empty) h

theorem Reachable.evolves {d : Db} (h : Reachable C S d) :
    Evolves C S.sent S.crew (fun _ => True) Db.empty d := by
  obtain ⟨ts, h⟩ := h
  exact (reach_evolves h (Discipline.sound_empty Db.Keyed.empty)).2

/-- **An invariant of all changes holds in every reachable database.** -/
theorem Reachable.keeps {I : Db → Prop} {d : Db} (h : Reachable C S d) (h0 : I Db.empty)
    (step : ∀ {k d d'}, Change C S.sent S.crew k d d' → I d → I d') : I d :=
  h.evolves.keeps (fun _ hc => step hc) h0

end

end ChannelDigests
