import ChannelDigests.Keys

/-!
# Why a run moves and why a row is queued

A change moves a run for one reason and queues a row for one reason.

* `Moved`, `Change.moved`      **a run whose state changed was moved by one of seven transactions**;
* `Queued`, `Change.outbox_origin`   **a row of the outbox was there, or it was queued for one
                               reason**;
* `Moved.reported`             a run of an operation that ends is reported with its end.
-/

namespace ChannelDigests
open Lib

/-- the status that ends the operation of a run. -/
def RunState.status : RunState → Option OperationStatus
  | .completed => some .succeeded
  | .partially => some .partiallySucceeded
  | .failed => some .failed
  | _ => none

/-! ## Runs -/

/-- why the run `r` is `r'` after a change. -/
inductive Moved (C : Contracts) (d d' : Db) (r r' : Run) : Prop where
  | acquiring : r.state = .accepted → r'.state = .acquiring → Moved C d d' r r'
  | empty {m} : RunCompletedEmpty m d d' r.runId r.ownerId → r.state.pending = true →
      r'.state = .completed → Moved C d d' r r'
  | failed {m failure} : RunFailed m d d' r.runId r.ownerId failure → r.state.pending = true →
      r'.state = .failed → Moved C d d' r r'
  | manifest {m manifest request} : ManifestCommitted m d d' C manifest request →
      manifest.runId = r.runId → manifest.ownerId = r.ownerId → r.state.pending = true →
      r'.state = .waitingRecap → Moved C d d' r r'
  | completion {m fact analysisId messageId sha incomplete run manifest} :
      CompletionSettled m d d' fact analysisId messageId sha incomplete run manifest →
      fact.digestRunId = r.runId → fact.owner = r.ownerId → r.state = .waitingRecap →
      r'.state = (completionOutcome fact.omittedCount incomplete).state → Moved C d d' r r'
  | recapFailure {m fact manifestId messageId sha} :
      FailureSettled m d d' fact manifestId messageId sha → fact.digestRunId = r.runId →
      fact.owner = r.ownerId → r.state = .waitingRecap → r'.state = .failed → Moved C d d' r r'
  | reaped {m cutoff} : RunsReaped m d d' cutoff → d.reaped cutoff r = true → r.state.open = true →
      r'.state = .failed → Moved C d d' r r'

section
variable {C : Contracts} {K : Message → Prop} {w : Crew} {k : Kind} {d d' : Db} {r r' : Run}

/-- the row of a run after an update, by identity. -/
theorem updateWhere_row {p : Run → Bool} {u : Run → Run} (hd : d.Keyed) (hr : r ∈ d.runs)
    (hr' : r' ∈ updateWhere p u d.runs) (hu : ∀ o, (u o).runId = o.runId)
    (hid : r'.runId = r.runId) : (p r = true ∧ r' = u r) ∨ r' = r := by
  obtain ⟨o, ho, ⟨hp, rfl⟩ | ⟨-, rfl⟩⟩ := mem_updateWhere.mp hr'
  · obtain rfl := hd.runs.eq ho hr ((hu o).symm.trans hid)
    exact .inl ⟨hp, rfl⟩
  · exact .inr (hd.runs.eq ho hr hid)

/-- the row of an open run after an update. -/
theorem isOpen_row {runId ownerId : Uuid} {p : RunState → Bool} {u : Run → Run} (hd : d.Keyed)
    (hr : r ∈ d.runs) (hr' : r' ∈ updateWhere (Run.isOpen runId ownerId p) u d.runs)
    (hu : ∀ o, (u o).runId = o.runId) (hid : r'.runId = r.runId) :
    r'.state = r.state ∨ (runId = r.runId ∧ ownerId = r.ownerId ∧ p r.state = true ∧ r' = u r) := by
  rcases updateWhere_row hd hr hr' hu hid with ⟨hp, rfl⟩ | rfl
  · simp only [Run.isOpen, Bool.and_eq_true, decide_eq_true_eq] at hp
    exact .inr ⟨hp.1.1.symm, hp.1.2.symm, hp.2, rfl⟩
  · exact .inl rfl

/-- **A run whose state changed was moved by one of seven transactions.** -/
theorem Change.moved (h : Change C K w k d d') (hd : d.Keyed) (hr : r ∈ d.runs)
    (hr' : r' ∈ d'.runs) (hid : r'.runId = r.runId) : r'.state = r.state ∨ Moved C d d' r r' := by
  -- without an arrow of its kind the row is unchanged.
  have still : (∀ a b, k.moves a b = false) → r'.state = r.state := fun hk => by
    rcases h.run_origin hd.runs hr' with ⟨o, ho, hm⟩ | ⟨hfresh, -⟩
    · obtain rfl := hd.runs.eq ho hr (hm.runId.symm.trans hid)
      exact hm.state.resolve_right (by simp [hk])
    · exact absurd hid.symm (hfresh r hr)
  cases h with
  | acquiring h =>
    obtain ⟨-, ob, -, rfl⟩ := h
    rcases updateWhere_row hd hr hr' (fun _ => rfl) hid with ⟨hp, rfl⟩ | rfl
    · simp only [Run.isAccepted, Bool.and_eq_true, decide_eq_true_eq] at hp
      exact .inr (.acquiring hp.2 rfl)
    · exact .inl rfl
  | @empty m _ _ _ _ h =>
    have h0 := h
    obtain ⟨-, ob, -, rfl⟩ := h
    refine (isOpen_row hd hr hr' (fun _ => rfl) hid).imp_right ?_
    rintro ⟨rfl, rfl, hp, rfl⟩
    exact .empty h0 hp rfl
  | @failed m _ _ _ _ _ h =>
    have h0 := h
    obtain ⟨-, ob, -, rfl⟩ := h
    refine (isOpen_row hd hr hr' (fun _ => rfl) hid).imp_right ?_
    rintro ⟨rfl, rfl, hp, rfl⟩
    exact .failed h0 hp rfl
  | manifest h _ =>
    rw [h.effect] at hr'
    refine (isOpen_row hd hr hr' (fun _ => rfl) hid).imp_right ?_
    rintro ⟨h1, h2, hp, rfl⟩
    exact .manifest h h1 h2 hp rfl
  | completion _ _ h _ =>
    obtain ⟨ob, -, heq⟩ := h.effect
    rw [heq] at hr'
    refine (isOpen_row hd hr hr' (fun _ => rfl) hid).imp_right ?_
    rintro ⟨h1, h2, hp, rfl⟩
    exact .completion h h1 h2 (of_decide_eq_true hp) rfl
  | recapFailure _ h =>
    obtain ⟨ob, -, heq⟩ := h.effect
    rw [heq] at hr'
    refine (isOpen_row hd hr hr' (fun _ => rfl) hid).imp_right ?_
    rintro ⟨h1, h2, hp, rfl⟩
    exact .recapFailure h h1 h2 (of_decide_eq_true hp) rfl
  | reaped h =>
    obtain ⟨ob, -, heq⟩ := h.effect
    rw [heq] at hr'
    rcases updateWhere_row hd hr hr' (fun _ => rfl) hid with ⟨hp, rfl⟩ | rfl
    · exact .inr (.reaped h hp (reaped_open hd.runs hr hp) rfl)
    · exact .inl rfl
  | _ => exact .inl (still fun a b => by cases a <;> cases b <;> rfl)

end

/-! ## The operation of a run -/

section
variable {d d' : Db} {r : Run}

theorem onDemandOperation_some {runId ownerId operation : Uuid}
    (h : d.onDemandOperation runId ownerId = some operation) :
    ∃ r ∈ d.runs, r.runId = runId ∧ r.ownerId = ownerId ∧ r.trigger = .onDemand ∧
      r.operationId = operation := by
  obtain ⟨r, hr, rfl⟩ := Option.map_eq_some_iff.mp h
  have := List.find?_some hr
  simp only [Bool.and_eq_true, decide_eq_true_eq] at this
  exact ⟨r, List.mem_of_find?_eq_some hr, this.1.1, this.1.2, this.2, rfl⟩

theorem Db.Keyed.onDemandOperation (hd : d.Keyed) (hr : r ∈ d.runs) (ht : r.trigger = .onDemand) :
    d.onDemandOperation r.runId r.ownerId = some r.operationId := by
  unfold Db.onDemandOperation operationIn
  rw [hd.runs.find? hr (by simp [ht]) fun o _ ho => by
    simp only [Bool.and_eq_true, decide_eq_true_eq] at ho
    exact ho.1.1]
  rfl

/-- the run whose operation is reported is the one that an update moves. -/
theorem owned_open {runId ownerId operation : Uuid} {p : RunState → Bool} {u : Run → Run}
    (hd : d.Keyed) (honce : d.runs.countP (Run.isOpen runId ownerId p) = 1)
    (hop : d.onDemandOperation runId ownerId = some operation) :
    ∃ r ∈ d.runs, r.trigger = .onDemand ∧ r.operationId = operation ∧ p r.state = true ∧
      u r ∈ updateWhere (Run.isOpen runId ownerId p) u d.runs := by
  obtain ⟨o, ho, hopen⟩ := List.countP_pos_iff.mp (honce ▸ Nat.one_pos)
  obtain ⟨r, hr, h1, h2, ht, rfl⟩ := onDemandOperation_some hop
  have hp := hopen
  simp only [Run.isOpen, Bool.and_eq_true, decide_eq_true_eq] at hp
  obtain rfl := hd.runs.eq ho hr (hp.1.1.trans h1.symm)
  exact ⟨o, ho, ht, rfl, hp.2, mem_updateWhere.mpr ⟨o, ho, .inl ⟨hopen, rfl⟩⟩⟩

theorem reapedReports_mem {m : Moment} {runs : List Run} {n : Nat} {row : OutboxMessage}
    (h : row ∈ reapedReports m runs n) :
    ∃ r ∈ runs, r.trigger = .onDemand ∧ ∃ id, row = (deadlineReport r).outboxRow id m.now := by
  induction runs generalizing n with
  | nil => simp [reapedReports] at h
  | cons r runs ih =>
    rw [reapedReports, List.mem_append] at h
    rcases h with h | h
    · split_ifs at h with ht
      · exact ⟨r, List.mem_cons_self, ht, _, List.mem_singleton.mp h⟩
      · simp at h
    · obtain ⟨o, ho, h⟩ := ih h
      exact ⟨o, List.mem_cons_of_mem _ ho, h⟩

theorem reapedReports_key {m : Moment} {runs : List Run} (n : Nat) (hr : r ∈ runs)
    (ht : r.trigger = .onDemand) :
    ∃ row ∈ reapedReports m runs n, row.key = .report r.operationId .failed := by
  induction runs generalizing n with
  | nil => cases hr
  | cons o runs ih =>
    rcases List.mem_cons.mp hr with rfl | hr
    · exact ⟨(deadlineReport r).outboxRow (m.ids n) m.now, by simp [reapedReports, ht], rfl⟩
    · obtain ⟨row, hrow, hk⟩ := ih (n + 1) hr
      exact ⟨row, by rw [reapedReports]; exact List.mem_append_right _ hrow, hk⟩

theorem completionReport_row (operation ownerId eventId : Uuid) (resultRef : String) (omitted : Nat)
    (incomplete : Bool) :
    let row := completionReport operation ownerId eventId resultRef omitted incomplete
    row.operationId = operation ∧ row.report.operationId = operation ∧
      some row.report.status = (completionOutcome omitted incomplete).state.status := by
  unfold completionReport completionOutcome
  cases incomplete <;> by_cases h : omitted = 0 <;> simp [h, OperationReportRow.withWarning,
    OperationReportRow.withResult, OperationReportRow.causedBy, OperationReportRow.new,
    Outcome.state, RunState.status, Nat.pos_of_ne_zero]

end

/-! ## Rows of the outbox -/

/-- a row of the outbox before and after a change: its key, owner and operation stay, and its
payload unless it is a registration. -/
structure OutboxMoves (r r' : OutboxMessage) : Prop where
  key : r'.key = r.key
  ownerId : r'.ownerId = r.ownerId
  operationId : r'.operationId = r.operationId
  payload : r.key.isRegistration = false → r'.payload = r.payload

theorem OutboxMoves.refl (r : OutboxMessage) : OutboxMoves r r := ⟨rfl, rfl, rfl, fun _ => rfl⟩

/-- why a row is new in the outbox. -/
inductive Queued (C : Contracts) (K : Message → Prop) (d d' : Db) : OutboxMessage → Prop where
  | subscription {m c messageId sha id} : K (.command (.subscription messageId c)) →
      SubscriptionApplied m d d' c messageId sha →
      Queued C K d d' ((subscriptionReport c messageId).outboxRow id m.now)
  | rejection {m c sha reason id} : K (.command c) → c.subject ≠ .occurrence →
      CommandRejected m d d' (c.rejection sha reason) →
      Queued C K d d' ((c.rejection sha reason).report.outboxRow id m.now)
  | run {m c messageId sha id} : K (.command (.run messageId c)) → c.trigger = .onDemand →
      RunCreated m d d' c messageId sha ∨ RunRepeated m d d' c messageId sha →
      Queued C K d d' ((queuedReport c messageId).outboxRow id m.now)
  | occurrence {m o id} : K (.command (.occurrence o)) → OccurrenceFanned m d d' o →
      Queued C K d d' ((fannedOutReport o).outboxRow id m.now)
  | owned {r r' : Run} {row : OperationReportRow} {id now} : r ∈ d.runs → r' ∈ d'.runs → r'.runId = r.runId →
      r.trigger = .onDemand → row.operationId = r.operationId →
      row.report.operationId = r.operationId →
      (row.report.status.terminal = true →
        r.state.terminal = false ∧ r'.state.status = some row.report.status) →
      Queued C K d d' (row.outboxRow id now)
  | request {m manifest request} : ManifestCommitted m d d' C manifest request →
      Queued C K d d' (recapRequestRow manifest request (m.ids 0) m.now)
  | registration {row : OutboxMessage} : row.key.isRegistration = true → Queued C K d d' row

section
variable {C : Contracts} {K : Message → Prop} {w : Crew} {k : Kind} {d d' : Db}

/-- a report for the operation of the run that an update moves. -/
theorem queued_owned {runId ownerId id : Uuid} {now : Instant} {p : RunState → Bool}
    {u : Run → Run} {report : Uuid → OperationReportRow} {row : OutboxMessage} (hd : d.Keyed)
    (honce : d.runs.countP (Run.isOpen runId ownerId p) = 1)
    (hd' : d'.runs = updateWhere (Run.isOpen runId ownerId p) u d.runs)
    (hrow : ∃ operation, d.onDemandOperation runId ownerId = some operation ∧
      row = (report operation).outboxRow id now)
    (hp : ∀ state, p state = true → state.terminal = false)
    (hu : ∀ r, (u r).runId = r.runId ∧ ∀ operation,
      (u r).state.status = some (report operation).report.status)
    (hreport : ∀ operation, (report operation).operationId = operation ∧
      (report operation).report.operationId = operation) :
    Queued C K d d' row := by
  obtain ⟨operation, hop, rfl⟩ := hrow
  obtain ⟨r, hr, ht, rfl, hpr, hmem⟩ := owned_open (u := u) hd honce hop
  exact .owned hr (hd' ▸ hmem) (hu r).1 ht (hreport _).1 (hreport _).2
    fun _ => ⟨hp _ hpr, (hu r).2 _⟩

theorem OfferedOwned.mem {rows rows' : List OutboxMessage} {owned : Option Uuid}
    {report : Uuid → OperationReportRow} {id : Uuid} {now : Instant} {row : OutboxMessage}
    (h : OfferedOwned rows owned report id now rows') (hr : row ∈ rows') :
    row ∈ rows ∨ ∃ operation, owned = some operation ∧ row = (report operation).outboxRow id now := by
  cases owned with
  | none => exact .inl ((show rows' = rows from h) ▸ hr)
  | some operation => exact (Offered.mem h hr).imp_right fun he => ⟨operation, rfl, he⟩

theorem OfferedOwned.kept {rows rows' : List OutboxMessage} {owned : Option Uuid}
    {report : Uuid → OperationReportRow} {id : Uuid} {now : Instant} {row : OutboxMessage}
    (h : OfferedOwned rows owned report id now rows') (hr : row ∈ rows) : row ∈ rows' :=
  h.all.kept hr

theorem outbox_updated {p : OutboxMessage → Bool} {u : OutboxMessage → OutboxMessage}
    (hu : ∀ o, p o = true → OutboxMoves o (u o)) (rows : List OutboxMessage) :
    ∃ v : OutboxMessage → OutboxMessage, updateWhere p u rows = rows.map v ∧
      ∀ o, OutboxMoves o (v o) := by
  refine ⟨fun o => if p o then u o else o, rfl, fun o => ?_⟩
  dsimp only
  split_ifs with hp
  · exact hu o hp
  · exact .refl o

/-- **The outbox after a change**: rows that are published, backed off or revived, or reports
offered one after the other, each for a reason. -/
theorem Change.outbox (h : Change C K w k d d') (hd : d.Keyed) :
    (∃ v : OutboxMessage → OutboxMessage, d'.outbox = d.outbox.map v ∧ ∀ o, OutboxMoves o (v o)) ∨
    ∃ more, OfferedAll d.outbox more d'.outbox ∧ ∀ row ∈ more, Queued C K d d' row := by
  have hf := h.frame .outbox
  have one : ∀ {row : OutboxMessage} {ob : List OutboxMessage}, Offered d.outbox row ob →
      OfferedAll d.outbox [row] ob := fun h => ⟨_, h, rfl⟩
  have single : ∀ {d' : Db} {row : OutboxMessage}, Queued C K d d' row →
      ∀ o ∈ [row], Queued C K d d' o := fun h o ho => by rwa [List.mem_singleton.mp ho]
  have queuedRun : ∀ {m c messageId sha ob}, K (.command (.run messageId c)) →
      (RunCreated m d d' c messageId sha ∨ RunRepeated m d d' c messageId sha) →
      OfferedQueued m c messageId d.outbox ob → d'.outbox = ob →
      ∃ more, OfferedAll d.outbox more d'.outbox ∧ ∀ row ∈ more, Queued C K d d' row := by
    intro m c messageId sha ob hk hrun hob hd'
    unfold OfferedQueued at hob
    split_ifs at hob with ht
    · exact ⟨_, hd' ▸ one hob, single (.run hk ht hrun)⟩
    · exact ⟨[], hd'.trans hob, by simp⟩
  have owned : ∀ {runId ownerId id : Uuid} {now : Instant} {p : RunState → Bool} {u : Run → Run}
      {report : Uuid → OperationReportRow} {ob : List OutboxMessage},
      OfferedOwned d.outbox (d.onDemandOperation runId ownerId) report id now ob →
      d'.outbox = ob → d.runs.countP (Run.isOpen runId ownerId p) = 1 →
      d'.runs = updateWhere (Run.isOpen runId ownerId p) u d.runs →
      (∀ state, p state = true → state.terminal = false) →
      (∀ r, (u r).runId = r.runId ∧ ∀ operation,
        (u r).state.status = some (report operation).report.status) →
      (∀ operation, (report operation).operationId = operation ∧
        (report operation).report.operationId = operation) →
      ∃ more, OfferedAll d.outbox more d'.outbox ∧ ∀ row ∈ more, Queued C K d d' row := by
    intro runId ownerId id now p u report ob hob hd' honce hruns hp hu hreport
    refine ⟨_, hd' ▸ hob.all, fun row hrow => ?_⟩
    obtain ⟨operation, hop, rfl⟩ := List.mem_map.mp hrow
    exact queued_owned hd honce hruns ⟨operation, Option.mem_toList.mp hop, rfl⟩ hp hu hreport
  have pending : ∀ state : RunState, state.pending = true → state.terminal = false := by
    intro state
    cases state <;> decide
  have waiting : ∀ state : RunState, decide (state = .waitingRecap) = true →
      state.terminal = false := by
    intro state
    cases state <;> decide
  have hkept : ∀ r ∈ d.runs, ∃ r' ∈ d'.runs, RunMoves k r r' := fun r hr => h.run_kept hd.runs hr
  cases h with
  | @subscription m _ _ _ _ _ hk h =>
    obtain ⟨s, d₁, ob, -, hob, heq⟩ := h.effect
    exact .inr ⟨_, by rw [heq]; exact one hob, single (.subscription hk h)⟩
  | rejection hk hs h =>
    obtain ⟨ob, hob, heq⟩ := h.effect
    exact .inr ⟨_, by rw [heq]; exact one hob, single (.rejection hk hs h)⟩
  | created hk h =>
    obtain ⟨ob, hob, heq⟩ := h.effect
    exact .inr (queuedRun hk (.inl h) hob (by rw [heq]))
  | repeated hk h =>
    obtain ⟨ob, hob, heq⟩ := h.effect
    exact .inr (queuedRun hk (.inr h) hob (by rw [heq]))
  | occurrence hk h =>
    obtain ⟨runs, ob, -, hob, heq⟩ := h.effect
    exact .inr ⟨_, by rw [heq]; exact one hob, single (.occurrence hk h)⟩
  | acquiring h =>
    obtain ⟨ob, hob, heq⟩ := h.effect
    refine .inr ⟨_, by rw [heq]; exact hob.all, fun row hrow => ?_⟩
    obtain ⟨operation, hop, rfl⟩ := List.mem_map.mp hrow
    obtain ⟨r, hr, -, -, ht, rfl⟩ := onDemandOperation_some (Option.mem_toList.mp hop)
    obtain ⟨r', hr', hm⟩ := hkept r hr
    exact .owned hr hr' hm.runId ht rfl rfl nofun
  | empty h =>
    obtain ⟨ob, hob, heq⟩ := h.effect
    exact .inr (owned (u := Run.enter .completed _) hob (by rw [heq]) h.once (by rw [heq]) pending (fun _ => ⟨rfl, fun _ => rfl⟩)
      fun _ => ⟨rfl, rfl⟩)
  | failed h =>
    obtain ⟨ob, hob, heq⟩ := h.effect
    exact .inr (owned (u := Run.fail _ _) hob (by rw [heq]) h.once (by rw [heq]) pending (fun _ => ⟨rfl, fun _ => rfl⟩)
      fun _ => ⟨rfl, rfl⟩)
  | manifest h _ =>
    refine .inr ⟨_, by rw [h.effect]; exact one (.inr ⟨rfl, h.newKey, h.newOutboxId⟩),
      single (.request h)⟩
  | completion _ _ h _ =>
    obtain ⟨ob, hob, heq⟩ := h.effect
    refine .inr (owned hob (by rw [heq]) h.once (congrArg Db.runs heq) waiting
      (fun _ => ⟨rfl, fun op => (completionReport_row op _ _ _ _ _).2.2.symm⟩)
      fun op => ⟨(completionReport_row op _ _ _ _ _).1, (completionReport_row op _ _ _ _ _).2.1⟩)
  | recapFailure _ h =>
    obtain ⟨ob, hob, heq⟩ := h.effect
    exact .inr (owned (u := Run.fail _ _) hob (by rw [heq]) h.once (by rw [heq]) waiting (fun _ => ⟨rfl, fun _ => rfl⟩)
      fun _ => ⟨rfl, rfl⟩)
  | reaped h =>
    obtain ⟨ob, hob, heq⟩ := h.effect
    refine .inr ⟨_, by rw [heq]; exact hob, fun row hrow => ?_⟩
    obtain ⟨r, hr, ht, id, rfl⟩ := reapedReports_mem hrow
    obtain ⟨hr, hp⟩ := List.mem_filter.mp hr
    have hfailed : ∀ now, d'.runs = updateWhere (d.reaped _) (Run.fail "deadline_exceeded" now)
        d.runs → r.fail "deadline_exceeded" now ∈ d'.runs := fun now hd' => by
      rw [hd']
      exact mem_updateWhere.mpr ⟨r, hr, .inl ⟨hp, rfl⟩⟩
    refine .owned hr (hfailed _ (congrArg Db.runs heq)) rfl ht rfl rfl fun _ => ⟨?_, rfl⟩
    have := reaped_open hd.runs hr hp
    revert this
    cases r.state <;> decide
  | published => exact .inl (outbox_updated (u := OutboxMessage.publish _) (fun o _ => ⟨rfl, rfl, rfl, fun _ => rfl⟩) _)
  | backedOff => exact .inl (outbox_updated (u := OutboxMessage.backOff _) (fun o _ => ⟨rfl, rfl, rfl, fun _ => rfl⟩) _)
  | registration hrow h =>
    unfold Db.upsertRegistration at h
    split_ifs at h with hid hkey
    · cases h
      refine .inl (outbox_updated (u := OutboxMessage.revive _) (fun o ho => ⟨rfl, rfl, rfl, fun hk => ?_⟩) _)
      rw [of_decide_eq_true ho, hrow] at hk
      cases hk
    · cases h
      refine .inr ⟨_, one (.inr ⟨rfl, fun o ho he => hkey ?_, fun o ho he => hid ?_⟩),
        single (.registration (by rw [hrow]; rfl))⟩
      · exact List.any_eq_true.mpr ⟨o, ho, decide_eq_true he⟩
      · exact List.any_eq_true.mpr ⟨o, ho, decide_eq_true he⟩
  | _ => exact .inl ⟨id, (hf (by decide)).trans (List.map_id _).symm, fun o => .refl o⟩

/-- a row of the outbox was there before a change, or it is queued for a reason. -/
theorem Change.outbox_origin (h : Change C K w k d d') (hd : d.Keyed) {o' : OutboxMessage}
    (ho : o' ∈ d'.outbox) : (∃ o ∈ d.outbox, OutboxMoves o o') ∨ Queued C K d d' o' := by
  rcases h.outbox hd with ⟨v, hd', hv⟩ | ⟨more, hmore, hq⟩
  · rw [hd'] at ho
    obtain ⟨o, hold, rfl⟩ := List.mem_map.mp ho
    exact .inl ⟨o, hold, hv o⟩
  · exact (hmore.mem ho).imp (fun ho => ⟨o', ho, .refl o'⟩) (hq o')

/-- a row of the outbox is still there after a change. -/
theorem Change.outbox_kept (h : Change C K w k d d') (hd : d.Keyed) {o : OutboxMessage}
    (ho : o ∈ d.outbox) : ∃ o' ∈ d'.outbox, OutboxMoves o o' := by
  rcases h.outbox hd with ⟨v, hd', hv⟩ | ⟨more, hmore, -⟩
  · exact ⟨v o, by rw [hd']; exact List.mem_map_of_mem ho, hv o⟩
  · exact ⟨o, hmore.kept ho, .refl o⟩

/-- the keys of the outbox stay unique. -/
theorem Change.outboxKeys (h : Change C K w k d d') (hd : d.Keyed)
    (hu : KeyUnique (·.key) d.outbox) : KeyUnique (·.key) d'.outbox := by
  rcases h.outbox hd with ⟨v, hd', hv⟩ | ⟨more, hmore, -⟩
  · rw [hd']
    exact keyUnique_map hu fun o => (hv o).key
  · exact hmore.unique hu

/-- a queued key stays queued. -/
theorem Change.queued (h : Change C K w k d d') (hd : d.Keyed) {key : OutboxKey}
    (hq : d.queued key) : d'.queued key := by
  obtain ⟨o, ho, rfl⟩ := hq
  obtain ⟨o', ho', hm⟩ := h.outbox_kept hd ho
  exact ⟨o', ho', hm.key⟩

/-- **A run of an operation that ends is reported with its end.** -/
theorem Moved.reported {r r' : Run} (h : Moved C d d' r r') (hd : d.Keyed) (hr : r ∈ d.runs)
    (ht : r.trigger = .onDemand) {status : OperationStatus} (hs : r'.state.status = some status) :
    d'.queued (.report r.operationId status) := by
  have hop := hd.onDemandOperation hr ht
  have owned : ∀ {report : Uuid → OperationReportRow} {id : Uuid} {now : Instant}
      {ob : List OutboxMessage},
      OfferedOwned d.outbox (d.onDemandOperation r.runId r.ownerId) report id now ob →
      d'.outbox = ob → (report r.operationId).operationId = r.operationId →
      (report r.operationId).report.status = status → d'.queued (.report r.operationId status) := by
    intro report id now ob hob hd' hid hst
    rw [hop] at hob
    unfold Db.queued
    rw [hd', Offered.key hob]
    exact .inr (by simp [OperationReportRow.outboxRow, hid, hst])
  cases h with
  | acquiring _ h' => simp [h', RunState.status] at hs
  | empty h _ h' =>
    obtain ⟨ob, hob, heq⟩ := h.effect
    rw [h'] at hs
    cases hs
    exact owned hob (by rw [heq]) rfl rfl
  | failed h _ h' =>
    obtain ⟨ob, hob, heq⟩ := h.effect
    rw [h'] at hs
    cases hs
    exact owned hob (by rw [heq]) rfl rfl
  | manifest _ _ _ _ h' => simp [h', RunState.status] at hs
  | completion h h1 h2 _ h' =>
    obtain ⟨ob, hob, heq⟩ := h.effect
    rw [h1, h2] at hob
    have hrow := completionReport_row r.operationId
    refine owned hob (by rw [heq]) (hrow _ _ _ _ _).1 (Option.some.inj ?_)
    rw [(hrow _ _ _ _ _).2.2, ← h', hs]
  | recapFailure h h1 h2 _ h' =>
    obtain ⟨ob, hob, heq⟩ := h.effect
    rw [h1, h2] at hob
    rw [h'] at hs
    cases hs
    exact owned hob (by rw [heq]) rfl rfl
  | reaped h hp _ h' =>
    obtain ⟨ob, hob, heq⟩ := h.effect
    rw [h'] at hs
    cases hs
    obtain ⟨row, hrow, hk⟩ := reapedReports_key 0 (List.mem_filter.mpr ⟨hr, hp⟩) ht
    unfold Db.queued
    rw [heq, hob.key]
    exact .inr ⟨row, hrow, hk⟩

end

end ChannelDigests
