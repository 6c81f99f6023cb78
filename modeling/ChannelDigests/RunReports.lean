import ChannelDigests.Fit

/-!
# Operation reports agree with run state

When every run command has an operation of its own, the reports of the operation of an on-demand
run say how the run ended.

* `RunOf`             the run is the run of a command that was received;
* `Command.Answers`   the reports that answer a command at its intake;
* `Db.Reported`       the joint invariant of runs, inbox and outbox;
* `Change.reported`   every change keeps it;
* `reachable_reports` **an ended on-demand run has one report of its end, any other has none**.
-/

namespace ChannelDigests
open Lib

/-! ## The invariant -/

/-- the inbox has a row of this message. -/
def Db.hasReceived (d : Db) (messageId : Uuid) : Prop := ∃ row ∈ d.inbox, row.messageId = messageId

/-- the run is the run of this command. -/
inductive RunOf (d : Db) (r : Run) : Command → Prop where
  | run {messageId c} : c.digestRunId = r.runId → c.operationId = r.operationId →
      c.trigger = r.trigger → d.hasReceived messageId → RunOf d r (.run messageId c)
  | occurrence {o} : o.operationId = r.operationId → r.trigger = .scheduled →
      RunOf d r (.occurrence o)

/-- the reports that answer a command at its intake. -/
inductive Command.Answers : Command → OperationReported → Prop where
  | applied {messageId c} : Answers (.subscription messageId c) (subscriptionReport c messageId).report
  | rejected {c : Command} {sha reason} : Answers c (c.rejection sha reason).report.report
  | queued {messageId c} : Answers (.run messageId c) (queuedReport c messageId).report
  | fannedOut {o} : Answers (.occurrence o) (fannedOutReport o).report

/-- an operation of a run command belongs to no other command. -/
def OwnOperations (K : Message → Prop) : Prop :=
  ∀ messageId c, K (.command (.run messageId c)) →
    ∀ c', K (.command c') → c'.operationId = c.operationId → c' = .run messageId c

/-- a report of an operation was queued for a command of this operation, or for an on-demand run
of it. -/
structure Reports (K : Message → Prop) (d : Db) (operation : Uuid) (status : OperationStatus)
    (p : OperationReported) : Prop where
  operationId : p.operationId = operation
  status : p.status = status
  source : (∃ c, K (.command c) ∧ c.operationId = operation ∧ c.Answers p) ∨
    ∃ r ∈ d.runs, r.trigger = .onDemand ∧ r.operationId = operation

/-- what holds of runs, inbox and outbox together. -/
structure Db.Reported (K : Message → Prop) (d : Db) : Prop where
  keyed : d.Keyed
  outboxKeys : KeyUnique (·.key) d.outbox
  commanded : ∀ r ∈ d.runs, ∃ c, K (.command c) ∧ RunOf d r c
  /-- an operation of a run command is reported once its command is received. -/
  heard : ∀ messageId c status, K (.command (.run messageId c)) →
    d.queued (.report c.operationId status) → d.hasReceived messageId
  ended : ∀ r ∈ d.runs, r.trigger = .onDemand → ∀ status, status.terminal = true →
    (d.queued (.report r.operationId status) ↔ r.state.status = some status)
  reports : ∀ o ∈ d.outbox, ∀ operation status, o.key = .report operation status →
    ∃ p, o.payload = .report p ∧ Reports K d operation status p

theorem Db.Reported.empty (K : Message → Prop) : Db.empty.Reported K where
  keyed := .empty
  outboxKeys := .nil
  commanded _ h := by cases h
  heard _ _ _ _ h := by obtain ⟨_, h, -⟩ := h; cases h
  ended _ h := by cases h
  reports _ h := by cases h

theorem RunState.status_some {s : RunState} {status : OperationStatus}
    (h : s.status = some status) : status.terminal = true ∧ s.terminal = true := by
  revert h
  cases s <;> cases status <;> decide

section
variable {C : Contracts} {K : Message → Prop} {w : Crew} {k : Kind} {d d' : Db}

/-! ## Runs and their commands -/

/-- what is received stays received. -/
theorem Change.hasReceived (h : Change C K w k d d') {messageId : Uuid}
    (hr : d.hasReceived messageId) : d'.hasReceived messageId := by
  obtain ⟨row, hrow, hid⟩ := hr
  rcases h.inbox with hd' | ⟨row', hd', -⟩
  · exact ⟨row, hd' ▸ hrow, hid⟩
  · exact ⟨row, by rw [hd']; exact List.mem_append_left _ hrow, hid⟩

theorem not_hasReceived {messageId : Uuid} {subject : Subject} {key : InboxKey}
    (h : d.inboxHolds messageId subject key = false) : ¬ d.hasReceived messageId := by
  rintro ⟨row, hrow, rfl⟩
  have := List.any_eq_false.mp h row hrow
  simp at this

theorem RunOf.change {r r' : Run} {c : Command} (h : RunOf d r c) (hm : RunMoves k r r')
    (hc : Change C K w k d d') : RunOf d' r' c := by
  cases h with
  | run h1 h2 h3 h4 =>
    exact .run (h1.trans hm.runId.symm) (h2.trans hm.operationId.symm) (h3.trans hm.trigger.symm)
      (hc.hasReceived h4)
  | occurrence h1 h2 => exact .occurrence (h1.trans hm.operationId.symm) (hm.trigger.trans h2)

theorem RunOf.operationId {r : Run} {c : Command} (h : RunOf d r c) :
    c.operationId = r.operationId := by
  cases h <;> assumption

/-- a run was there before a change, or one command created it. -/
theorem Change.run_command (h : Change C K w k d d') (hd : d.Keyed) {r' : Run} (hr : r' ∈ d'.runs) :
    (∃ r ∈ d.runs, RunMoves k r r') ∨
    (∃ m c messageId sha, K (.command (.run messageId c)) ∧ RunCreated m d d' c messageId sha ∧
      r' = { c.run m.now with outputLanguage := c.outputLanguage }) ∨
    ∃ o, K (.command (.occurrence o)) ∧ r'.trigger = .scheduled ∧ r'.operationId = o.operationId := by
  rcases h.run_origin hd.runs hr with hold | ⟨hfresh, -, -, hk⟩
  · exact .inl hold
  · refine .inr ?_
    have old : r' ∉ d.runs := fun hmem => hfresh r' hmem rfl
    cases h with
    | created hc h =>
      obtain ⟨ob, -, heq⟩ := h.effect
      rw [heq] at hr
      rcases List.mem_append.mp hr with hr | hr
      · exact absurd hr old
      · exact .inl ⟨_, _, _, _, hc, h, List.mem_singleton.mp hr⟩
    | repeated _ h =>
      obtain ⟨ob, -, heq⟩ := h.effect
      rw [heq] at hr
      obtain ⟨r, hmem, ⟨-, rfl⟩ | ⟨-, rfl⟩⟩ := mem_updateWhere.mp hr
      · exact absurd rfl (hfresh r hmem)
      · exact absurd hmem old
    | occurrence hc h =>
      obtain ⟨runs, ob, hruns, -, heq⟩ := h.effect
      obtain ⟨new, rfl, -, hnew⟩ := fannedOut_new hruns
      rw [heq] at hr
      rcases List.mem_append.mp hr with hr | hr
      · exact absurd hr old
      · exact .inr ⟨_, hc, (hnew r' hr).1, (hnew r' hr).2.1⟩
    | _ => rcases hk with hk | hk <;> cases hk

/-- the command of a run message is received once its run is created. -/
theorem RunCreated.hasReceived {m : Moment} {c : RunRequested} {messageId : Uuid} {sha : Digest}
    (h : RunCreated m d d' c messageId sha) : d'.hasReceived messageId := by
  obtain ⟨ob, -, heq⟩ := h.effect
  exact ⟨_, by rw [heq]; exact List.mem_append_right _ List.mem_cons_self, rfl⟩

theorem RunRepeated.hasReceived {m : Moment} {c : RunRequested} {messageId : Uuid} {sha : Digest}
    (h : RunRepeated m d d' c messageId sha) : d'.hasReceived messageId := by
  obtain ⟨ob, -, heq⟩ := h.effect
  exact ⟨_, by rw [heq]; exact List.mem_append_right _ List.mem_cons_self, rfl⟩

theorem CommandRejected.hasReceived {m : Moment} {r : Rejection} (h : CommandRejected m d d' r) :
    d'.hasReceived r.messageId := by
  obtain ⟨ob, -, heq⟩ := h.effect
  exact ⟨_, by rw [heq]; exact List.mem_append_right _ List.mem_cons_self, rfl⟩

/-- creating a run queues no report of an end. -/
theorem RunCreated.queued {m : Moment} {c : RunRequested} {messageId : Uuid} {sha : Digest}
    (h : RunCreated m d d' c messageId sha) {operation : Uuid} {status : OperationStatus}
    (hs : status.terminal = true) (hq : d'.queued (.report operation status)) :
    d.queued (.report operation status) := by
  obtain ⟨ob, hob, heq⟩ := h.effect
  unfold Db.queued at hq
  rw [heq] at hq
  unfold OfferedQueued at hob
  split_ifs at hob with ht
  · rcases (hob.key _).mp hq with hq | hk
    · exact hq
    · injection hk with _ hk
      rw [hk] at hs
      cases hs
  · rwa [show ob = d.outbox from hob] at hq

/-! ## Every change keeps the invariant -/

variable (hop : OwnOperations K)
include hop

/-- two on-demand runs of one operation are one run. -/
theorem Db.Reported.unique (hd : d.Reported K) {r r' : Run} (hr : r ∈ d.runs) (hr' : r' ∈ d.runs)
    (ht : r.trigger = .onDemand) (ho : r'.operationId = r.operationId) : r' = r := by
  obtain ⟨c, hc, hrun⟩ := hd.commanded r hr
  obtain ⟨c', hc', hrun'⟩ := hd.commanded r' hr'
  cases hrun with
  | run h1 h2 h3 h4 =>
    obtain rfl := hop _ _ hc c' hc' (hrun'.operationId.trans (ho.trans h2.symm))
    cases hrun' with
    | run h1' _ _ _ => exact hd.keyed.runs.eq hr' hr (h1'.symm.trans h1)
  | occurrence _ h => rw [ht] at h; cases h

/-- the command of an on-demand run is the only one of its operation, and it is received. -/
theorem Db.Reported.command (hd : d.Reported K) {r : Run} (hr : r ∈ d.runs)
    (ht : r.trigger = .onDemand) {c : Command} (hc : K (.command c))
    (ho : c.operationId = r.operationId) : ∃ messageId c', c = .run messageId c' ∧
      d.hasReceived messageId := by
  obtain ⟨c', hc', hrun⟩ := hd.commanded r hr
  cases hrun with
  | run h1 h2 h3 h4 => exact ⟨_, _, hop _ _ hc' c hc (ho.trans h2.symm), h4⟩
  | occurrence _ h => rw [ht] at h; cases h

/-- a report of an end that a change queues for the operation of an on-demand run says how the run
ended. -/
theorem Queued.ends {o : OutboxMessage} (h : Queued C K d d' o) (hd : d.Reported K)
    (hc : Change C K w k d d') {r r' : Run} (hr : r ∈ d.runs) (hr' : r' ∈ d'.runs)
    (hid : r'.runId = r.runId) (ht : r.trigger = .onDemand) {status : OperationStatus}
    (hs : status.terminal = true) (hk : o.key = .report r.operationId status) :
    r'.state.status = some status := by
  cases h with
  | subscription hkc _ =>
    injection hk with ho _
    obtain ⟨_, _, h, -⟩ := hd.command hop hr ht hkc ho
    cases h
  | rejection hkc _ hrej =>
    injection hk with ho _
    obtain ⟨messageId, c', rfl, hrec⟩ := hd.command hop hr ht hkc ho
    exact absurd hrec (not_hasReceived hrej.fresh)
  | run _ _ _ =>
    injection hk with _ hst
    rw [← hst] at hs
    cases hs
  | occurrence hkc _ =>
    injection hk with ho _
    obtain ⟨_, _, h, -⟩ := hd.command hop hr ht hkc ho
    cases h
  | @owned r₁ r₁' row _ _ h1 h1' hid1 ht1 hop1 _ hend =>
    injection hk with hk1 hk2
    obtain rfl := hd.unique hop hr h1 ht (hop1.symm.trans hk1)
    obtain rfl := (hc.keyed hd.keyed).runs.eq h1' hr' (hid1.trans hid.symm)
    rw [← hk2]
    exact (hend (hk2 ▸ hs)).2
  | request _ => cases hk
  | registration h => rw [hk] at h; cases h

/-- a command is received when the operation of a run command is reported. -/
theorem Queued.heard {o : OutboxMessage} (h : Queued C K d d' o) (hd : d.Reported K)
    (hc : Change C K w k d d') {messageId : Uuid} {c : RunRequested}
    (hkc : K (.command (.run messageId c))) {status : OperationStatus}
    (hk : o.key = .report c.operationId status) : d'.hasReceived messageId := by
  cases h with
  | subscription hkc' _ =>
    injection hk with ho _
    cases hop _ _ hkc _ hkc' ho
  | rejection hkc' _ hrej =>
    injection hk with ho _
    cases hop _ _ hkc _ hkc' ho
    exact hrej.hasReceived
  | run hkc' _ hrun =>
    injection hk with ho _
    cases hop _ _ hkc _ hkc' ho
    exact hrun.elim (·.hasReceived) (·.hasReceived)
  | occurrence hkc' _ =>
    injection hk with ho _
    cases hop _ _ hkc _ hkc' ho
  | @owned r _ _ _ _ hr _ _ ht ho _ _ =>
    injection hk with hk1 _
    obtain ⟨_, _, he, hrec⟩ := hd.command hop hr ht hkc (hk1.symm.trans ho)
    cases he
    exact hc.hasReceived hrec
  | request _ => cases hk
  | registration h => rw [hk] at h; cases h

omit hop in
/-- a report that a change queues is of a command or of an on-demand run. -/
theorem Queued.reports {o : OutboxMessage} (h : Queued C K d d' o) {operation : Uuid}
    {status : OperationStatus} (hc : Change C K w k d d') (hd : d.Keyed)
    (hk : o.key = .report operation status) :
    ∃ p, o.payload = .report p ∧ Reports K d' operation status p := by
  cases h with
  | subscription hkc _ =>
    injection hk with ho hst
    exact ⟨_, rfl, ho, hst, .inl ⟨_, hkc, ho, .applied⟩⟩
  | rejection hkc _ _ =>
    injection hk with ho hst
    exact ⟨_, rfl, ho, hst, .inl ⟨_, hkc, ho, .rejected⟩⟩
  | run hkc _ _ =>
    injection hk with ho hst
    exact ⟨_, rfl, ho, hst, .inl ⟨_, hkc, ho, .queued⟩⟩
  | occurrence hkc _ =>
    injection hk with ho hst
    exact ⟨_, rfl, ho, hst, .inl ⟨_, hkc, ho, .fannedOut⟩⟩
  | @owned r r' row _ _ hr hr' hid ht ho hpo _ =>
    injection hk with hk1 hst
    obtain ⟨r₁, hr₁, hm⟩ := hc.run_kept hd.runs hr
    exact ⟨_, rfl, hpo.trans (ho.symm.trans hk1), hst,
      .inr ⟨r₁, hr₁, hm.trigger.trans ht, hm.operationId.trans (ho.symm.trans hk1)⟩⟩
  | request _ => cases hk
  | registration h => rw [hk] at h; cases h

/-- **Every change keeps reports and runs together.** -/
theorem Change.reported (h : Change C K w k d d') (hd : d.Reported K) : d'.Reported K where
  keyed := h.keyed hd.keyed
  outboxKeys := h.outboxKeys hd.keyed hd.outboxKeys
  commanded r' hr' := by
    rcases h.run_command hd.keyed hr' with ⟨r, hr, hm⟩ | ⟨m, c, messageId, sha, hc, hcreated, rfl⟩ |
      ⟨o, ho, ht, hop'⟩
    · obtain ⟨c, hc, hrun⟩ := hd.commanded r hr
      exact ⟨c, hc, hrun.change hm h⟩
    · exact ⟨_, hc, .run rfl rfl rfl hcreated.hasReceived⟩
    · exact ⟨_, ho, .occurrence hop'.symm ht⟩
  heard messageId c status hc hq := by
    obtain ⟨o', ho', hk⟩ := hq
    rcases h.outbox_origin hd.keyed ho' with ⟨o, ho, hm⟩ | hq
    · exact h.hasReceived (hd.heard messageId c status hc ⟨o, ho, hm.key.symm.trans hk⟩)
    · exact hq.heard hop hd h hc hk
  ended r' hr' ht' status hs := by
    rcases h.run_command hd.keyed hr' with ⟨r, hr, hm⟩ | ⟨m, c, messageId, sha, hc, hcreated, rfl⟩ |
      ⟨o, ho, ht, -⟩
    · have ht := hm.trigger.symm.trans ht'
      rw [hm.operationId]
      refine ⟨fun ⟨o', ho', hk⟩ => ?_, fun hst => ?_⟩
      · rcases h.outbox_origin hd.keyed ho' with ⟨o, ho, hmo⟩ | hq
        · have hst := (hd.ended r hr ht status hs).mp ⟨o, ho, hmo.key.symm.trans hk⟩
          rwa [hm.terminal (RunState.status_some hst).2]
        · exact hq.ends hop hd h hr hr' hm.runId ht hs hk
      · rcases h.moved hd.keyed hr hr' hm.runId with he | hmoved
        · exact h.queued hd.keyed ((hd.ended r hr ht status hs).mpr (he ▸ hst))
        · exact hmoved.reported hd.keyed hr ht hst
    · refine ⟨fun hq => ?_, fun hst => by cases hst⟩
      exact absurd (hd.heard _ _ _ hc (hcreated.queued hs hq)) (not_hasReceived hcreated.fresh)
    · rw [ht] at ht'
      cases ht'
  reports o' ho' operation status hk := by
    rcases h.outbox_origin hd.keyed ho' with ⟨o, ho, hm⟩ | hq
    · have hk' := hm.key.symm.trans hk
      obtain ⟨p, hp, h1, h2, hsource⟩ := hd.reports o ho operation status hk'
      refine ⟨p, (hm.payload (by rw [hk']; rfl)).trans hp, h1, h2, hsource.imp_right ?_⟩
      rintro ⟨r, hr, ht, hop'⟩
      obtain ⟨r', hr', hmr⟩ := h.run_kept hd.keyed.runs hr
      exact ⟨r', hr', hmr.trigger.trans ht, hmr.operationId.trans hop'⟩
    · exact hq.reports h hd.keyed hk

end

/-! ## What the outbox says of a run -/

/-- the row reports the end of the operation. -/
def OutboxKey.ends (operation : Uuid) : OutboxKey → Bool
  | .report o status => o = operation && status.terminal
  | _ => false

/-- all reports of an operation. -/
def Db.reportsOf (d : Db) (operation : Uuid) : List OutboxMessage :=
  d.outbox.filter fun o => match o.key with
    | .report o _ => o = operation
    | _ => false

namespace Db.Reported
variable {K : Message → Prop} {d : Db} {r : Run}

/-- the reports of the operation of a scheduled run answer a command. -/
theorem scheduled (hd : d.Reported K) (hop : OwnOperations K) (hr : r ∈ d.runs)
    (ht : r.trigger = .scheduled) {o : OutboxMessage} (ho : o ∈ d.reportsOf r.operationId) :
    ∃ c p, K (.command c) ∧ c.operationId = r.operationId ∧ c.Answers p ∧ o.payload = .report p := by
  obtain ⟨ho, hk⟩ := List.mem_filter.mp ho
  rcases hkey : o.key with ⟨operation, status⟩ | _ | _ <;> simp only [hkey] at hk
  · obtain rfl := of_decide_eq_true hk
    obtain ⟨p, hp, -, -, ⟨c, hc, hco, ha⟩ | ⟨r', hr', ht', ho'⟩⟩ := hd.reports o ho _ _ hkey
    · exact ⟨c, p, hc, hco, ha, hp⟩
    · rw [hd.unique hop hr' hr ht' ho'.symm, ht'] at ht
      cases ht
  · cases hk
  · cases hk

end Db.Reported

end ChannelDigests
