import ChannelDigests.Availability
import ChannelDigests.Building

/-!
# Every tick makes progress

While storage answers and nobody else works on its run, a tick ends its run, hands it to Knowledge,
or finds a provider wait that is active.

* `Contracts.AcceptsTicks`   what the service relies on besides the manifests;
* `Supply`, `Alongside`      new identities, and what the others commit during a tick;
* `Engaged`                  what a tick knows of its run;
* `beginAcquisitionTx_begins` … `commitManifestTx_commits`   the transactions that are not refused;
* `execute_waits`            a call that is deferred has an active wait;
* `Advanced`                 what a tick leaves;
* `Db.Next`                  the oldest pending run without an active wait;
* `tick_advances`            **every tick makes progress, and a wait holds up no other run**.
-/

namespace ChannelDigests
open Lib Prog

/-! ## The contract -/

/-- a window, counts within the limits, and the family of channel digests. -/
structure RecapRequested.WithinLimits (q : RecapRequested) : Prop where
  window : q.windowStart < q.windowEnd
  sources : 1 ≤ q.sourceCount ∧ q.sourceCount ≤ maxSources
  channels : 1 ≤ q.channelCount ∧ q.channelCount ≤ maxChannels
  family : q.analysisFamily = "channel_digest_recap"
  contract : q.analysisContract = "channel_digest_recap.v1"

/-- what the service relies on: manifests and recap requests within the limits are written and
valid, and so are the reports of the executor. -/
structure Contracts.AcceptsTicks (C : Contracts) : Prop extends C.AcceptsManifests where
  request : ∀ q : RecapRequested, q.WithinLimits →
    (C.recapRequest.toVec q).isSome = true ∧ C.recapRequest.validForPublish q = true
  acquiring : ∀ operation owner, OperationReportRow.accepted C
    (OperationReportRow.new operation owner .running "acquiring").report = true
  noSources : ∀ operation owner, OperationReportRow.accepted C
    (OperationReportRow.new operation owner .succeeded "no_sources").report = true
  failure : ∀ (failure : RunFailure) owner operation,
    OperationReportRow.accepted C (failure.report owner operation).report = true

/-! ## What surrounds a tick -/

/-- no row that a tick inserts under an identity of its own has this one. -/
structure Db.Vacant (d : Db) (id : Uuid) : Prop where
  outbox : ∀ o ∈ d.outbox, o.outboxId ≠ id
  manifest : ∀ m ∈ d.manifests, m.manifestId ≠ id
  links : ∀ l ∈ d.manifestSources, l.manifestId ≠ id

/-- the identities that the tick has drawn, and the instants of its statements. -/
structure Supply where
  drawn : Uuid → Prop
  asked : Instant → Prop

/-- more was drawn and asked. -/
structure Supply.Grows (e e' : Supply) : Prop where
  drawn : ∀ u, e.drawn u → e'.drawn u
  asked : ∀ t, e.asked t → e'.asked t

/-- no statement is lost, and each draws identities of `ours` that were not drawn before; the
provider answers anything. -/
def supply (ours : Uuid → Prop) : Supply → (q : Question) → q.Answer → Supply → Prop
  | e, .moment, m, e' => m.fuse = none ∧ (∀ n, ours (m.ids n) ∧ ¬ e.drawn (m.ids n)) ∧
      (∀ u, e'.drawn u ↔ e.drawn u ∨ ∃ n, u = m.ids n) ∧ ∀ t, e'.asked t ↔ e.asked t ∨ t = m.now
  | e, _, _, e' => e' = e

/-- changes of the other tasks but the reaper's; they leave our identities alone. -/
def Alongside (C : Contracts) (ours : Uuid → Prop) (d d' : Db) : Prop :=
  Evolves C (fun _ => True) .one (fun k => k.isExecutor = false ∧ k ≠ .reaped) d d' ∧
    ∀ u, ours u → d.Vacant u → d'.Vacant u

section
variable {C : Contracts} {ours : Uuid → Prop} {e e' : Supply} {d d' : Db}

theorem Supply.Grows.refl (e : Supply) : e.Grows e := ⟨fun _ => id, fun _ => id⟩

theorem Supply.Grows.trans {e'' : Supply} (h : e.Grows e') (h' : e'.Grows e'') : e.Grows e'' :=
  ⟨fun u hu => h'.drawn u (h.drawn u hu), fun t ht => h'.asked t (h.asked t ht)⟩

theorem supply_grows {q : Question} {a : q.Answer} (h : supply ours e q a e') : e.Grows e' := by
  cases q with
  | moment => exact ⟨fun u hu => (h.2.2.1 u).mpr (.inl hu), fun t ht => (h.2.2.2 t).mpr (.inl ht)⟩
  | _ =>
    obtain rfl : e' = e := h
    exact .refl e'

theorem alongside (C : Contracts) (ours : Uuid → Prop) :
    Surrounds (Alongside C ours) (supply ours) False where
  refl _ := ⟨.refl, fun _ _ h => h⟩
  trans h h' := ⟨h.1.trans h'.1, fun u hu hv => h'.2 u hu (h.2 u hu hv)⟩
  faults _ _ _ h hm := hm h.1

/-- an invariant of those changes. -/
theorem Alongside.keeps {I : Db → Prop} (h : Alongside C ours d d')
    (step : ∀ {k d d'}, k.isExecutor = false → k ≠ .reaped →
      Change C (fun _ => True) .one k d d' → I d → I d') (hd : I d) : I d' :=
  h.1.keeps (fun hk hc hI => step hk.1 hk.2 hc hI) hd

/-- the leases are the executor's. -/
theorem Alongside.leases (h : Alongside C ours d d') : d'.leases = d.leases :=
  h.keeps (I := fun x => x.leases = d.leases) (fun {k a b} hk _ hc ha => by
    have hl : b.leases = a.leases := hc.frame .leases (by cases k <;> first | decide | cases hk)
    exact hl.trans ha) rfl

end

/-! ## The run of a tick -/

/-- what a tick knows of its run: it is stored in this state, and the identities that are still to
be drawn are vacant. -/
structure Engaged (C : Contracts) (ours : Uuid → Prop) (e : Supply) (r : Run) (state : RunState)
    (d : Db) : Prop where
  joined : d.Joined
  sourced : d.Sourced C
  spare : ∀ u, ours u → ¬ e.drawn u → d.Vacant u
  row : ∃ r' ∈ d.runs, r'.fixed = r.fixed ∧ r'.state = state

section
variable {C : Contracts} {K : Message → Prop} {w : Crew} {k : Kind} {ours : Uuid → Prop}
  {e e' : Supply} {d d' : Db} {r : Run} {state : RunState} {m : Moment}

theorem Engaged.grows (h : Engaged C ours e r state d) (hg : e.Grows e') :
    Engaged C ours e' r state d :=
  ⟨h.joined, h.sourced, fun u hu hn => h.spare u hu fun hd => hn (hg.drawn u hd), h.row⟩

/-- the identities of a statement are vacant, and no others are drawn by it. -/
theorem Engaged.vacant (h : Engaged C ours e r state d) (hm : supply ours e .moment m e')
    (n : Nat) :
    d.Vacant (m.ids n) :=
  h.spare _ (hm.2.1 n).1 (hm.2.1 n).2

/-- no transaction of another task moves a pending run. -/
theorem RunMoves.waits {r' : Run} (h : RunMoves k r r') (hk : k.isExecutor = false)
    (hr : k ≠ .reaped) (hp : r.state.pending = true) : r'.state = r.state := by
  refine h.state.resolve_right fun hm => ?_
  revert hm hk hr hp
  cases k <;> cases r.state <;> cases r'.state <;> decide

theorem Engaged.other (h : Engaged C ours e r state d) (hp : state.pending = true)
    (ho : Alongside C ours d d') : Engaged C ours e r state d' := by
  obtain ⟨hj, hs, hrow⟩ := ho.keeps (I := fun d => d.Joined ∧ d.Sourced C ∧
      ∃ r' ∈ d.runs, r'.fixed = r.fixed ∧ r'.state = state) (fun {k a b} hk hr hc hI => by
    obtain ⟨hj, hs, r₁, h₁, hf, hst⟩ := hI
    obtain ⟨r₂, h₂, hm⟩ := hc.run_kept hj.keyed.runs h₁
    refine ⟨hc.joined hj, hc.sourced (by rintro rfl; cases hk) hs, r₂, h₂, hm.fixed.trans hf, ?_⟩
    exact (hm.waits hk hr (by rw [hst]; exact hp)).trans hst) ⟨h.joined, h.sourced, h.row⟩
  exact ⟨hj, hs, fun u hu hn => ho.2 u hu (h.spare u hu hn), hrow⟩

/-- the one row that an update of the run in its state moves. -/
theorem Engaged.once (h : Engaged C ours e r state d) {p : RunState → Bool} (hp : p state = true) :
    d.runs.countP (Run.isOpen r.runId r.ownerId p) = 1 := by
  obtain ⟨r', hr', hf, rfl⟩ := h.row
  have hid : r'.runId = r.runId := congrArg (·.1) hf
  have howner : r'.ownerId = r.ownerId := congrArg (·.2.1) hf
  refine h.joined.keyed.runs.countP_one hr' ?_ fun o ho => ?_
  · simp [Run.isOpen, hid, howner, hp]
  · simp only [Run.isOpen, Bool.and_eq_true, decide_eq_true_eq] at ho
    exact ho.1.1.trans hid.symm

theorem Engaged.accepted_once (h : Engaged C ours e r .accepted d) :
    d.runs.countP (Run.isAccepted r.runId) = 1 := by
  obtain ⟨r', hr', hf, hst⟩ := h.row
  have hid : r'.runId = r.runId := congrArg (·.1) hf
  refine h.joined.keyed.runs.countP_one hr' ?_ fun o ho => ?_
  · simp [Run.isAccepted, hid, hst]
  · simp only [Run.isAccepted, Bool.and_eq_true, decide_eq_true_eq] at ho
    exact ho.1.trans hid.symm

theorem Engaged.holds (h : Engaged C ours e r state d) :
    d.holdsRun r.runId r.ownerId r.operationId := by
  obtain ⟨r', hr', hf, -⟩ := h.row
  exact ⟨r', hr', congrArg (·.1) hf, congrArg (·.2.1) hf, congrArg (·.2.2.1) hf⟩

/-- a row of the outbox under the identity of a statement leaves the others vacant. -/
theorem Db.Vacant.offered {u : Uuid} {rows : List OutboxMessage} {owned : Option Uuid}
    {report : Uuid → OperationReportRow} {id : Uuid} {now : Instant} (h : d.Vacant u)
    (ho : OfferedOwned d.outbox owned report id now rows) (hne : u ≠ id)
    (hm : d'.manifests = d.manifests) (hl : d'.manifestSources = d.manifestSources)
    (hob : d'.outbox = rows) : d'.Vacant u := by
  refine ⟨fun o hmem => ?_, hm ▸ h.manifest, hl ▸ h.links⟩
  rw [hob] at hmem
  cases owned with
  | none =>
    rw [show rows = d.outbox from ho] at hmem
    exact h.outbox o hmem
  | some operation =>
    rcases Offered.mem ho hmem with hold | rfl
    · exact h.outbox o hold
    · exact fun he => hne he.symm

end

/-! ## Transactions that are not refused -/

section
variable {C : Contracts} {ours : Uuid → Prop} {e e' : Supply} {d d' : Db} {r : Run}
  {state : RunState} {m : Moment}

/-- a valid report under a vacant identity is queued. -/
theorem wp_reportOwned_accepted {ε : Type} [FromReportError ε] {runId ownerId id : Uuid}
    {now : Instant} {report : Uuid → OperationReportRow} {Q : Unit → Db → Prop} {E : ε → Prop}
    (hid : ∀ o ∈ d.outbox, o.outboxId ≠ id)
    (hr : ∀ operation, OperationReportRow.accepted C (report operation).report = true)
    (h : ∀ d', Q () d') :
    (reportOwned C runId ownerId report id now : Sql ε Unit).wp False Q E d := by
  simp only [reportOwned, onDemandOperation, Tx.wp_bind, Tx.wp_read]
  refine ⟨False.elim, ?_⟩
  rcases d.onDemandOperation runId ownerId with _ | operation
  · exact h d
  · simp only [OperationReportRow.enqueue, Tx.wp_bind, Tx.wp_check, insertOutboxOnce, Tx.wp_attempt]
    refine ⟨fun _ => ⟨False.elim, fun _ d' _ => h d', fun x hx => ?_⟩, fun hn => ?_⟩
    · split_ifs at hx with h1 h2
      obtain ⟨o, ho, he⟩ := List.any_eq_true.mp h2
      exact absurd (of_decide_eq_true he) (hid o ho)
    · rw [hr operation] at hn
      cases hn

theorem beginAcquisitionTx_begins (hC : C.AcceptsTicks) (h : Engaged C ours e r .accepted d)
    (hv : d.Vacant (m.ids 0)) :
    (beginAcquisitionTx C r.pendingRun m).closes False
      (fun x d' => x = .ok true ∧ AcquisitionBegun m d d' r.runId r.ownerId) d := by
  refine Tx.closes_effect ?_ (beginAcquisitionTx_closes (fun _ he => by cases he)
    (fun _ he => by cases he) fun _ hd' _ => hd')
  unfold Tx.closes beginAcquisitionTx
  simp only [Tx.wp_bind, Tx.wp_mark, updateRuns, Tx.wp_change, Tx.wp_ite, Tx.wp_drop]
  refine ⟨False.elim, False.elim, fun hne => absurd h.accepted_once hne, fun _ => ?_⟩
  exact wp_reportOwned_accepted hv.outbox (fun operation => hC.acquiring operation _) fun d' =>
    ⟨False.elim, rfl⟩

theorem failRunTx_fails (hC : C.AcceptsTicks) (h : Engaged C ours e r state d)
    (hp : state.pending = true) (hv : d.Vacant (m.ids 0)) (failure : RunFailure) :
    (failRunTx C r.runId r.ownerId failure m).closes False
      (fun x d' => x = .ok () ∧ RunFailed m d d' r.runId r.ownerId failure) d := by
  refine Tx.closes_effect ?_ (failRunTx_closes (fun _ he => by cases he) fun _ hd' _ => hd')
  unfold Tx.closes failRunTx
  simp only [Tx.wp_bind, Tx.wp_mark, updateRuns, Tx.wp_change, Tx.wp_ite, Tx.wp_throw]
  refine ⟨False.elim, False.elim, fun hne => absurd (h.once hp) hne, fun _ => ?_⟩
  exact wp_reportOwned_accepted hv.outbox (fun operation => hC.failure failure _ operation)
    fun d' => ⟨False.elim, trivial⟩

theorem completeEmptyRunTx_completes (hC : C.AcceptsTicks) (h : Engaged C ours e r state d)
    (hp : state.pending = true) (hv : d.Vacant (m.ids 0)) :
    (completeEmptyRunTx C r.runId r.ownerId m).closes False
      (fun x d' => x = .ok () ∧ RunCompletedEmpty m d d' r.runId r.ownerId) d := by
  refine Tx.closes_effect ?_
    (completeEmptyRunTx_closes (fun _ he => by cases he) fun _ hd' _ => hd')
  unfold Tx.closes completeEmptyRunTx
  simp only [Tx.wp_bind, Tx.wp_mark, updateRuns, Tx.wp_change, Tx.wp_ite, Tx.wp_throw]
  refine ⟨False.elim, False.elim, fun hne => absurd (h.once hp) hne, fun _ => ?_⟩
  exact wp_reportOwned_accepted hv.outbox (fun operation => hC.noSources operation _)
    fun d' => ⟨False.elim, trivial⟩

/-- a manifest of a stored run without one is inserted. -/
theorem wp_insertManifest_new {row : Manifest} {Q : Bool → Db → Prop} {E : CoordinatorError → Prop}
    (hcounts : row.countsOk = true) (hrun : ∀ x ∈ d.manifests, x.runId ≠ row.runId)
    (hid : ∀ x ∈ d.manifests, x.manifestId ≠ row.manifestId)
    (hstored : ∃ x ∈ d.runs, x.runId = row.runId)
    (h : Q true { d with manifests := d.manifests ++ [row] }) :
    (insertManifest row).wp False Q E d := by
  have hrun' : d.manifests.any (fun x => x.runId = row.runId) = false :=
    List.any_eq_false.mpr fun x hx => by simpa using hrun x hx
  have hid' : d.manifests.any (fun x => x.manifestId = row.manifestId) = false :=
    List.any_eq_false.mpr fun x hx => by simpa using hid x hx
  have hstored' : d.runs.all (fun x => x.runId ≠ row.runId) = false := by
    obtain ⟨x, hx, he⟩ := hstored
    exact List.all_eq_false.mpr ⟨x, hx, by simpa using he⟩
  simp only [insertManifest, Tx.wp_attempt, hcounts, hrun', hid', hstored', Bool.not_true,
    Bool.false_eq_true, if_false]
  exact ⟨False.elim, fun _ _ he => by cases he; exact h, fun _ he => by cases he⟩

theorem wp_insertManifestSources_new {links : List ManifestSourceLink} {Q : Unit → Db → Prop}
    {E : CoordinatorError → Prop} (hlinks : links.Nodup ∧ ∀ l ∈ links, l ∉ d.manifestSources)
    (h : Q () { d with manifestSources := d.manifestSources ++ links }) :
    (insertManifestSources links).wp False Q E d := by
  simp only [insertManifestSources, Tx.wp_attempt, if_pos hlinks]
  exact ⟨False.elim, fun _ _ he => by cases he; exact h, fun _ he => by cases he⟩

theorem wp_insertOutbox_new {row : OutboxMessage} {Q : Unit → Db → Prop}
    {E : CoordinatorError → Prop} (hkey : ∀ o ∈ d.outbox, o.key ≠ row.key)
    (hid : ∀ o ∈ d.outbox, o.outboxId ≠ row.outboxId)
    (h : Q () { d with outbox := d.outbox ++ [row] }) : (insertOutbox row).wp False Q E d := by
  have hfresh : (d.outboxHolds row.key || d.outbox.any fun o => o.outboxId = row.outboxId) =
      false := by
    rw [Bool.or_eq_false_iff]
    exact ⟨List.any_eq_false.mpr fun o ho => by simpa using hkey o ho,
      List.any_eq_false.mpr fun o ho => by simpa using hid o ho⟩
  simp only [insertOutbox, Tx.wp_attempt, hfresh, Bool.false_eq_true, if_false]
  exact ⟨False.elim, fun _ _ he => by cases he; exact h, fun _ he => by cases he⟩

theorem Manifest.counts_ok {row : Manifest} (h : row.countsOk = true) :
    1 ≤ row.sourceCount ∧ row.sourceCount ≤ 100 ∧ 1 ≤ row.channelCount ∧ row.channelCount ≤ 20 := by
  simp only [Manifest.countsOk, Bool.and_eq_true, decide_eq_true_eq] at h
  exact ⟨h.1.1.1, h.1.1.2, h.1.2, h.2⟩

/-- a manifest of the run is stored, with its links and its request. -/
theorem commitManifestTx_commits (h : Engaged C ours e r state d) (hp : state.pending = true)
    {manifestId : Uuid} {windowStart windowEnd : Instant} {sources : List ManifestSource}
    {manifest : CanonicalManifest} {request : RecapRequested}
    (hb : build C manifestId r.ownerId r.runId windowStart windowEnd sources = .ok manifest)
    (hcounts : ∀ now, (manifest.row now).countsOk = true)
    (ha : request.announces manifest = true) (hop : request.operationId = r.operationId)
    (hv : d.Vacant (m.ids 0)) (hid : d.Vacant manifestId) :
    (commitManifestTx manifest request m).closes False
      (fun x d' => x = .ok .applied ∧ ManifestCommitted m d d' C manifest request) d := by
  have built := build_ok hb
  obtain ⟨r', hr', hf, hst⟩ := h.row
  have hrun : r'.runId = manifest.runId := (congrArg (·.1) hf).trans built.runId_eq.symm
  have hnone : ∀ x ∈ d.manifests, x.runId ≠ manifest.runId := by
    rw [← hrun]
    exact h.joined.pending_manifest hr' (by rw [hst]; exact hp)
  have hkey : ∀ o ∈ d.outbox, o.key ≠ .recapRequest manifest.runId := fun o ho he => by
    obtain ⟨_, x, hx, o', _, hid', hreq⟩ := h.joined.requestRun o ho _ he
    exact hnone x hx (hreq.manifestRun.trans hid')
  have hlinks : manifest.links.Nodup ∧ ∀ l ∈ manifest.links, l ∉ d.manifestSources := by
    unfold CanonicalManifest.links
    rw [built.messages_eq, built.manifestId_eq]
    refine ⟨List.Nodup.map (fun a b hab => ?_) ?_, fun l hl hmem => ?_⟩
    · exact Prod.ext (congrArg (·.channelId) hab) (congrArg (·.messageId) hab)
    · exact (List.perm_insertionSort _ _).nodup_iff.mpr (List.nodup_dedup _)
    · obtain ⟨x, -, rfl⟩ := List.mem_map.mp hl
      exact hid.links _ hmem rfl
  have hsmall : manifest.sourceCount < i32End ∧ manifest.channelCount < i32End := by
    obtain ⟨-, hsources, -, hchannels⟩ := Manifest.counts_ok (hcounts 0)
    exact ⟨lt_of_le_of_lt hsources (by decide), lt_of_le_of_lt hchannels (by decide)⟩
  refine Tx.closes_effect ?_ (commitManifestTx_closes ?_ ?_ ha (fun _ he => by cases he)
    (fun _ he => by cases he) fun _ hd' _ => hd')
  · unfold Tx.closes commitManifestTx
    simp only [Tx.wp_bind, Tx.wp_mark, Tx.wp_check, hsmall, decide_true, Bool.and_self]
    refine ⟨False.elim, fun _ => ?_, fun hn => by cases hn⟩
    refine wp_insertManifest_new (hcounts m.now) hnone (fun x hx => ?_) ⟨r', hr', hrun⟩ ?_
    · exact fun he => hid.manifest x hx (he.trans built.manifestId_eq)
    simp only [Bool.not_true, Bool.false_eq_true, if_false, Tx.wp_bind]
    refine wp_insertManifestSources_new hlinks (wp_insertOutbox_new hkey hv.outbox ?_)
    simp only [updateRuns, Tx.wp_change, Tx.wp_ite, Tx.wp_throw, Tx.wp_commit]
    refine ⟨False.elim, fun hne => absurd ?_ hne, fun _ => ⟨False.elim, trivial⟩⟩
    rw [built.runId_eq, built.ownerId_eq]
    exact h.once hp
  · rw [built.manifestId_eq, built.ownerId_eq, built.runId_eq]
    exact ⟨_, _, _, hb⟩
  · rw [built.runId_eq, built.ownerId_eq, hop]
    exact h.holds

end

/-! ## Calls that are deferred -/

/-- a wait of the channel and the run was active at an instant of the tick. -/
def Waiting (asked : Instant → Prop) (channelId runId : Uuid) (d : Db) : Prop :=
  ∃ now, asked now ∧ ∃ l, d.lease channelId runId = some l ∧ l.checkpoint.state = .floodWait ∧
    now < l.expiresAt

section
variable {C : Contracts} {ours : Uuid → Prop} {request : AcquisitionRequest} {at_ : Cursor} {s : Db}
  {e : Supply} {α β : Type}

/-- a part of a call that is deferred leaves an active wait. -/
abbrev Defers (C : Contracts) (ours : Uuid → Prop) (request : AcquisitionRequest)
    (p : Action AcquisitionError α) (s : Db) (e : Supply) : Prop :=
  Safe (S := service) (Alongside C ours) (supply ours) (always fun _ _ => True) p
    (fun r d e' => r = .error .deferred → Waiting e'.asked request.channelId request.runId d) s e

theorem defers_bind {p : Action AcquisitionError α} {k : α → Action AcquisitionError β}
    (hp : Defers C ours request p s e) (hk : ∀ a s e, Defers C ours request (k a) s e) :
    Defers C ours request (p >>= k) s e := by
  refine (safe_bind (S := service) _ _ _).mpr (Safe.imp (fun r s' e' h => ?_) hp)
  cases r with
  | ok a => exact hk a s' e'
  | error x => exact fun he => h (by cases he; rfl)

/-- a statement is not deferred. -/
theorem statement_defers {t : Moment → Sql AcquisitionError α}
    (h : ∀ m d, (t m).wp False (fun _ _ => True) (· = .unavailable) d) :
    Defers C ours request (statement t) s e := by
  refine safe_transaction (alongside C ours) fun m s' e' _ _ => ?_
  unfold Tx.closes
  rw [Tx.wp_bind]
  refine Tx.wp_mono _ (fun a d _ => ⟨trivial, fun he => by cases he⟩) (fun x hx => ?_) (h m s')
  exact ⟨trivial, fun he => by rw [hx] at he; cases he⟩

theorem checkpoint_defers {state : CheckpointState} {wait : Option Nat} :
    Defers C ours request (checkpoint request at_ state wait) s e :=
  statement_defers fun _ _ => ⟨False.elim, trivial⟩

theorem storePosts_defers (posts : List ProviderPost) (st : Stored) :
    Defers C ours request (storePosts C request posts st) s e := by
  induction posts generalizing st s e with
  | nil => exact fun he => by cases he
  | cons post posts ih =>
    unfold storePosts
    split_ifs
    · exact ih st
    · split
      · exact fun he => by cases he
      · dsimp only
        split_ifs
        · exact ih _
        · exact ih _
        · exact ih _
        · refine defers_bind (statement_defers fun m d => ?_) fun _ _ _ => ih _
          simp only [guarded, Tx.wp_attempt]
          refine ⟨False.elim, fun _ _ _ => trivial, fun x hx => ?_⟩
          split at hx <;> cases hx
          rfl

theorem withdrawAbsent_defers {channelId : Uuid} {requested : Option Int} {page : ProviderPage} :
    Defers C ours request (withdrawAbsent channelId requested page) s e := by
  unfold withdrawAbsent
  split
  · exact fun he => by cases he
  · exact statement_defers fun _ _ => ⟨False.elim, trivial⟩

theorem finish_defers : Defers C ours request (finish request at_) s e :=
  defers_bind checkpoint_defers fun _ _ _ he => by cases he

/-- a wait is stored before the call is deferred. -/
theorem wait_defers {wait : Nat} : Defers C ours request (do
    checkpoint request at_ .floodWait (some wait)
    Prog.fail (α := α) .deferred) s e := by
  refine (safe_bind (S := service) _ _ _).mpr (safe_change (alongside C ours)
    (fun _ _ hf => hf.elim) fun m s' e' hm _ => ⟨trivial, fun _ => ?_⟩)
  refine ⟨m.now, (hm.2.2.2 m.now).mpr (.inr rfl), _, s'.lease_putLease _, rfl, ?_⟩
  have hpos : 0 < (leaseSeconds (some wait) : Int) * second :=
    Int.mul_pos (Int.natCast_pos.mpr (lt_of_lt_of_le Nat.one_pos (le_max_left _ _))) second_pos
  exact Int.lt_add_of_pos_right _ hpos

theorem resolve_defers : Defers C ours request (resolve request at_) s e := by
  unfold resolve
  refine defers_bind (fun _ _ _ _ _ he => by cases he) fun reply s' e' => ?_
  split
  · exact fun he => by cases he
  · exact wait_defers
  · exact fun he => by cases he

theorem walk_defers {channel : Nat} (n : Nat) (at_ : Cursor) (seen : List (Int × Digest)) {s : Db}
    {e : Supply} : Defers C ours request (walk C request channel n at_ seen) s e := by
  induction n generalizing at_ seen s e with
  | zero => exact finish_defers
  | succ n ih =>
    unfold walk
    refine defers_bind (fun _ _ _ _ _ he => by cases he) fun reply s' e' => ?_
    split
    · exact wait_defers
    · refine defers_bind (storePosts_defers _ _) fun st _ _ => ?_
      refine defers_bind withdrawAbsent_defers fun _ _ _ => ?_
      refine defers_bind checkpoint_defers fun _ s₁ e₁ => ?_
      exact (safe_ite (S := service) _ _ _ _).mpr ⟨fun _ => finish_defers, fun _ => ih _ _⟩
    · split_ifs
      · exact defers_bind checkpoint_defers fun _ _ _ he => by cases he
      · exact fun he => by cases he

/-- the lease that defers a call is an active wait. -/
theorem resume_defers : Defers C ours request (resume request) s e := by
  unfold resume
  refine safe_read (alongside C ours) (fun _ _ hf => hf.elim) fun m s' e' hm _ =>
    ⟨trivial, fun he => ?_⟩
  refine ⟨m.now, (hm.2.2.2 m.now).mpr (.inr rfl), ?_⟩
  unfold resumeFrom at he
  split at he
  · cases he
  · next l hl =>
    dsimp only at he
    split_ifs at he with hactive
    exact ⟨l, hl, hactive⟩

/-- **A call that is deferred has an active wait**, stored before or by the call itself. -/
theorem execute_waits : Defers C ours request (execute C request) s e := by
  unfold execute
  refine defers_bind resume_defers fun at_ s' e' => ?_
  split_ifs
  · exact fun he => by cases he
  · exact defers_bind resolve_defers fun _ _ _ => walk_defers _ _ _

end

/-! ## The calls of a tick -/

section
variable {C : Contracts} {ours : Uuid → Prop} {request : AcquisitionRequest} {d d' s : Db}
  {e e' : Supply} {r : Run} {channelId : Uuid}

/-- a step of a call leaves the run, its manifest and the outbox as they are. -/
theorem CallStep.engaged (hs : CallStep C request d d') (hn : d.names request)
    (h : Engaged C ours e r .acquiring d) : Engaged C ours e r .acquiring d' := by
  obtain ⟨k, hc, -, -⟩ := hs.walk.changes
  refine ⟨hc.joined h.joined, hs.sourced hn h.sourced, fun u hu hd => ?_, ?_⟩
  · have hv := h.spare u hu hd
    cases hs with
    | lease at_ state wait holder now => exact ⟨hv.outbox, hv.manifest, hv.links⟩
    | append post published revisionId _ ha =>
      rcases appendRevision_some ha with ⟨rfl, -⟩ | ⟨rfl, -⟩
      · exact hv
      · exact ⟨hv.outbox, hv.manifest, hv.links⟩
    | withdrawal g now =>
      refine ⟨hv.outbox, fun x hx => ?_, hv.links⟩
      obtain ⟨o, ho, ⟨-, rfl⟩ | ⟨-, rfl⟩⟩ := mem_updateWhere.mp hx
      · exact hv.manifest o ho
      · exact hv.manifest _ ho
  · cases hs with
    | lease at_ state wait holder now => exact h.row
    | append post published revisionId _ ha =>
      rcases appendRevision_some ha with ⟨rfl, -⟩ | ⟨rfl, -⟩ <;> exact h.row
    | withdrawal g now => exact h.row

theorem Waiting.grows (h : Waiting e.asked channelId r.runId d) (hg : e.Grows e') :
    Waiting e'.asked channelId r.runId d := by
  obtain ⟨now, ha, hl⟩ := h
  exact ⟨now, hg.asked now ha, hl⟩

theorem Waiting.kept {asked : Instant → Prop} {runId : Uuid} (h : Waiting asked channelId runId d)
    (hl : d'.lease channelId runId = d.lease channelId runId) :
    Waiting asked channelId runId d' := by
  obtain ⟨now, ha, l, hlease, hactive⟩ := h
  exact ⟨now, ha, l, hl.trans hlease, hactive⟩

theorem Alongside.lease (h : Alongside C ours d d') : d'.lease = d.lease := by
  funext channelId runId
  unfold Db.lease
  rw [h.leases]

theorem isDeferred_iff {x : Except AcquisitionError AcquisitionReport} :
    isDeferred x = true ↔ x = .error .deferred := by
  rcases x with (_ | _) | report <;> simp [isDeferred]

/-- the calls of a tick know their run, and what they are deferred for waits. -/
theorem acquire_waits (channels : List (Uuid × String)) (done : List Uuid)
    (hnodup : (channels.map (·.1)).Nodup) (hnew : ∀ c ∈ done, c ∉ channels.map (·.1))
    (h : Engaged C ours e r .acquiring s)
    (hn : ∀ channel ∈ channels, s.names (r.pendingRun.request channel))
    (hdone : ∀ c ∈ done, Waiting e.asked c r.runId s) :
    Safe (S := service) (Alongside C ours) (supply ours) (always fun _ _ => True)
      (acquire C r.pendingRun channels)
      (fun x d e' => Engaged C ours e' r .acquiring d ∧
        (∀ c ∈ done, Waiting e'.asked c r.runId d) ∧
        ∃ outcomes, x = .ok outcomes ∧
          ∀ o ∈ outcomes, isDeferred o.2 = true → Waiting e'.asked o.1 r.runId d) s e := by
  induction channels generalizing done s e with
  | nil => exact ⟨h, hdone, [], rfl, fun o ho => by cases ho⟩
  | cons channel channels ih =>
    rw [List.map_cons, List.nodup_cons] at hnodup
    have rule : CallRule C (r.pendingRun.request channel) (Alongside C ours) (fun _ _ => True)
        (supply ours) False (fun d => Engaged C ours e r .acquiring d ∧
          (∀ c ∈ channel :: channels, d.names (r.pendingRun.request c)) ∧
          ∀ c ∈ done, Waiting e.asked c r.runId d) :=
      { surrounds := alongside C ours
        other := fun {d d'} ho hI => by
          have hkept : ∀ c ∈ d.channels, c ∈ d'.channels :=
            ho.keeps (I := fun x => ∀ c ∈ d.channels, c ∈ x.channels)
              (fun _ _ hc hx c hmem => hc.channelsGrow.kept (hx c hmem)) fun _ hc => hc
          exact ⟨hI.1.other rfl ho, fun c hc => (hI.2.1 c hc).kept hkept,
            fun c hc => (hI.2.2 c hc).kept (by rw [ho.lease])⟩
        idle := fun _ => trivial
        step := fun {d d'} hI hstep => by
          have hun := hstep.spares (.refl _ d)
          refine ⟨trivial, hstep.engaged (hI.2.1 channel List.mem_cons_self) hI.1,
            fun c hc => (hI.2.1 c hc).kept hun.kept, fun c hc => (hI.2.2 c hc).kept ?_⟩
          exact hun.leases c fun he => hnew c hc (he ▸ List.mem_cons_self) }
    have hgrows : Safe (S := service) (Alongside C ours) (supply ours) (always fun _ _ => True)
        (execute C (r.pendingRun.request channel)) (fun _ _ e' => e.Grows e') s e :=
      safe_environment Supply.Grows.refl Supply.Grows.trans (fun _ _ _ _ => supply_grows) _ _ _
    refine (safe_bind (S := service) _ _ _).mpr ((safe_outcome (S := service) _ _).mpr
      (Safe.mono (fun _ _ => id) (fun _ _ _ _ => id) (fun _ _ _ _ => trivial)
        (fun x s' e' hx => ?_) (((call_keeps rule ⟨h, hn, hdone⟩).and execute_waits).and hgrows)))
    obtain ⟨⟨⟨hI, hnames, hold⟩, hwait⟩, hg⟩ := hx
    -- the channel joins those that wait, if its call is deferred.
    have hmore : ∃ more : List Uuid,
        (∀ c ∈ more, (c = channel.1 ∧ isDeferred x = true) ∨ c ∈ done) ∧
        (∀ c ∈ done, c ∈ more) ∧ (isDeferred x = true → channel.1 ∈ more) := by
      by_cases hx : isDeferred x = true
      · exact ⟨channel.1 :: done, fun c hc => (List.mem_cons.mp hc).imp_left fun he => ⟨he, hx⟩,
          fun c hc => List.mem_cons_of_mem _ hc, fun _ => List.mem_cons_self⟩
      · exact ⟨done, fun c hc => .inr hc, fun c hc => hc, fun h => absurd h hx⟩
    obtain ⟨more, hsub, hsup, hself⟩ := hmore
    refine (safe_bind (S := service) _ _ _).mpr (Safe.imp (fun y d e'' hy => ?_)
      (ih more hnodup.2 (fun c hc => ?_) (hI.grows hg)
        (fun c hc => hnames c (List.mem_cons_of_mem _ hc)) fun c hc => ?_))
    · obtain ⟨hE, hkept, outcomes, rfl, hall⟩ := hy
      refine ⟨hE, fun c hc => hkept c (hsup c hc), (channel.1, x) :: outcomes, rfl,
        fun o ho hdef => ?_⟩
      rcases List.mem_cons.mp ho with rfl | ho
      · exact hkept _ (hself hdef)
      · exact hall o ho hdef
    · rcases hsub c hc with ⟨rfl, -⟩ | hc
      · exact hnodup.1
      · exact fun hmem => hnew c hc (List.mem_cons_of_mem _ hmem)
    · rcases hsub c hc with ⟨rfl, hx⟩ | hc
      · exact hwait (isDeferred_iff.mp hx)
      · exact (hold c hc).grows hg

end

/-! ## Ticks -/

/-- the run waits for its recap or has ended. -/
def Db.past (d : Db) (runId : Uuid) : Prop :=
  ∃ r ∈ d.runs, r.runId = runId ∧
    (r.state = .waitingRecap ∨ r.state = .completed ∨ r.state = .failed)

/-- what a tick leaves: no run was to be worked on, its run is past, or a wait of its run was
active. -/
def Advanced (asked : Instant → Prop) : Except RunExecutionError Tick → Db → Prop
  | .ok .idle, d => ∃ now, asked now ∧ d.selectPending now = none
  | .ok (.deferred run _ _), d => ∃ now, asked now ∧ d.floodWaiting run.runId now = true
  | .ok (.unavailable run _ _), d => d.past run.runId
  | .ok (.proceeded run _ _ _), d => d.past run.runId
  | _, _ => False

theorem Waiting.flood {asked : Instant → Prop} {channelId runId : Uuid} {d : Db}
    (h : Waiting asked channelId runId d) : ∃ now, asked now ∧ d.floodWaiting runId now = true := by
  obtain ⟨now, ha, l, hl, hstate, hactive⟩ := h
  refine ⟨now, ha, List.any_eq_true.mpr ⟨l, List.mem_of_find?_eq_some hl, ?_⟩⟩
  have hkey := List.find?_some hl
  simp only [Bool.and_eq_true, decide_eq_true_eq] at hkey ⊢
  exact ⟨⟨hkey.2, hstate⟩, hactive⟩

/-- a channel is listed once. -/
theorem subscribedChannels_nodup {d : Db} (hd : d.Catalogued) (ownerId : Uuid) :
    ((d.subscribedChannels ownerId).map (·.1)).Nodup := by
  have hsubs : ((d.subscriptions.filter fun s => s.ownerId = ownerId && s.enabled).map
      (·.channelId)).Nodup := by
    refine List.Nodup.map_on (fun a ha b hb he => ?_) (hd.pairs.filter _).nodup
    have ha' := List.mem_filter.mp ha
    have hb' := List.mem_filter.mp hb
    simp only [Bool.and_eq_true, decide_eq_true_eq] at ha' hb'
    exact hd.pairs.eq ha'.1 hb'.1 (Prod.ext (ha'.2.1.trans hb'.2.1.symm) he)
  have hfound : ∀ subs : List Subscription, ((subs.filterMap fun s =>
      d.channels.find? fun c => c.channelId = s.channelId).map (·.channelId)).Sublist
        (subs.map (·.channelId)) := by
    intro subs
    induction subs with
    | nil => exact .slnil
    | cons s subs ih =>
      rw [List.filterMap_cons]
      split
      · exact ih.cons _
      · next c hc =>
        have hid : c.channelId = s.channelId := by simpa using List.find?_some hc
        rw [List.map_cons, List.map_cons, hid]
        exact ih.cons_cons _
  unfold Db.subscribedChannels
  rw [List.map_map]
  refine ((List.take_sublist _ _).map _).nodup ?_
  refine ((List.perm_insertionSort _ _).map _).nodup_iff.mpr ?_
  exact (hfound _).nodup hsubs

section
variable {C : Contracts} {ours : Uuid → Prop} {d d' s : Db} {e e' : Supply} {r : Run}
  {state : RunState} {m : Moment}

theorem RunFailed.past {failure : RunFailure} (h : RunFailed m d d' r.runId r.ownerId failure) :
    d'.past r.runId := by
  obtain ⟨ob, -, rfl⟩ := h.effect
  obtain ⟨x, -, hx, hmem⟩ :=
    mem_updateWhere_isOpen (u := Run.fail failure.failureClass m.now) h.once
  simp only [Run.isOpen, Bool.and_eq_true, decide_eq_true_eq] at hx
  exact ⟨_, hmem, hx.1.1, .inr (.inr rfl)⟩

theorem RunCompletedEmpty.past (h : RunCompletedEmpty m d d' r.runId r.ownerId) :
    d'.past r.runId := by
  obtain ⟨ob, -, rfl⟩ := h.effect
  obtain ⟨x, -, hx, hmem⟩ := mem_updateWhere_isOpen (u := Run.enter .completed m.now) h.once
  simp only [Run.isOpen, Bool.and_eq_true, decide_eq_true_eq] at hx
  exact ⟨_, hmem, hx.1.1, .inr (.inl rfl)⟩

theorem ManifestCommitted.past {manifest : CanonicalManifest} {request : RecapRequested}
    (h : ManifestCommitted m d d' C manifest request) : d'.past manifest.runId := by
  obtain ⟨x, -, hx, hmem⟩ := mem_updateWhere_isOpen (u := Run.enter .waitingRecap m.now) h.once
  rw [h.effect]
  simp only [Run.isOpen, Bool.and_eq_true, decide_eq_true_eq] at hx
  exact ⟨_, hmem, hx.1.1, .inl rfl⟩

/-- a last transaction of a tick succeeds, and its run is past. -/
abbrev Concludes (C : Contracts) (ours : Uuid → Prop) (r : Run) (p : Action RunExecutionError Unit)
    (s : Db) (e : Supply) : Prop :=
  Safe (S := service) (Alongside C ours) (supply ours) (always fun _ _ => True) p
    (fun x d _ => x = .ok () ∧ d.past r.runId) s e

/-- in a transaction of the tick the run is as before, and the identities are vacant. -/
theorem Engaged.at_transaction (h : Engaged C ours e r state s) (hp : state.pending = true)
    (hm : supply ours e .moment m e') (hs : Alongside C ours s d) :
    Engaged C ours e r state d ∧ d.Vacant (m.ids 0) :=
  ⟨h.other hp hs, (h.other hp hs).vacant hm 0⟩

/-- the run that a tick has begun is acquiring, and the identities to come are still vacant. -/
theorem Engaged.begun (h : Engaged C ours e r .accepted d) (hm : supply ours e .moment m e')
    (hb : AcquisitionBegun m d d' r.runId r.ownerId) : Engaged C ours e' r .acquiring d' := by
  have hc : Change C (fun _ => True) .one .acquiring d d' := .acquiring hb
  obtain ⟨ob, hob, rfl⟩ := hb.effect
  refine ⟨hc.joined h.joined, hc.sourced (by decide) h.sourced, fun u hu hd => ?_, ?_⟩
  · have hnew : u ≠ m.ids 0 := fun he => hd ((hm.2.2.1 u).mpr (.inr ⟨0, he⟩))
    exact ((h.grows (supply_grows hm)).spare u hu hd).offered hob hnew rfl rfl rfl
  · obtain ⟨r', hr', hf, hst⟩ := h.row
    have hid : r'.runId = r.runId := congrArg (·.1) hf
    have hp : Run.isAccepted r.runId r' = true := by simp [Run.isAccepted, hid, hst]
    exact ⟨_, mem_updateWhere.mpr ⟨r', hr', .inl ⟨hp, rfl⟩⟩, hf, rfl⟩

variable (hC : C.AcceptsTicks)
include hC

theorem failWith_past (h : Engaged C ours e r state s) (hp : state.pending = true)
    (failure : RunFailure) : Concludes C ours r (failWith C r.pendingRun failure) s e := by
  refine (safe_mapError (S := service) _ _ _).mpr
    (safe_transaction (alongside C ours) fun m s' e' hm hs => ?_)
  obtain ⟨hE, hv⟩ := h.at_transaction hp hm hs
  refine Tx.closes_mono (failRunTx_fails hC hE hp hv failure) fun x d' hx =>
    ⟨trivial, ?_, hx.2.past⟩
  rw [hx.1]
  rfl

theorem completeEmptyRun_past (h : Engaged C ours e r state s) (hp : state.pending = true) :
    Concludes C ours r ((completeEmptyRun C r.runId r.ownerId).mapError fun _ => .unavailable)
      s e := by
  refine (safe_mapError (S := service) _ _ _).mpr
    (safe_transaction (alongside C ours) fun m s' e' hm hs => ?_)
  obtain ⟨hE, hv⟩ := h.at_transaction hp hm hs
  refine Tx.closes_mono (completeEmptyRunTx_completes hC hE hp hv) fun x d' hx =>
    ⟨trivial, ?_, hx.2.past⟩
  rw [hx.1]
  rfl

/-- a selection that is not empty is committed. -/
theorem commitSources_past {seen : Db} {cap : Nat} {manifestId : Uuid} (hcap : cap ≤ maxSources)
    (hseen : seen.Sourced C) (h : Engaged C ours e r state s) (hp : state.pending = true)
    (hid : ours manifestId ∧ s.Vacant manifestId)
    (hne : (seen.selectSources r.pendingRun cap).sources ≠ []) :
    Concludes C ours r (commitSources C r.pendingRun
      (seen.selectSources r.pendingRun cap).sources manifestId) s e := by
  obtain ⟨manifest, hb⟩ := hseen.builds hC.toAcceptsManifests hcap hne manifestId
  have built := build_ok hb
  have hcounts := hseen.counts hcap hne built
  have hlimits : (recapRequest r.pendingRun manifest).WithinLimits := by
    obtain ⟨o, ho⟩ := List.exists_mem_of_ne_nil _ hne
    obtain ⟨x, hx, -⟩ := mem_selectSources ho
    obtain ⟨-, -, hstart, hend⟩ := mem_windowRevisions.mp (mem_latestRevisions.mp hx).1.1
    obtain ⟨h1, h2, h3, h4⟩ := Manifest.counts_ok (hcounts 0)
    exact ⟨lt_of_le_of_lt hstart hend, ⟨h1, h2⟩, ⟨h3, h4⟩, rfl, rfl⟩
  obtain ⟨hvec, hvalid⟩ := hC.request _ hlimits
  obtain ⟨bytes, hbytes⟩ := Option.isSome_iff_exists.mp hvec
  have ha : (recapRequest r.pendingRun manifest).announces manifest = true := by
    simp [RecapRequested.announces, recapRequest, built.ownerId_eq, built.runId_eq, Run.pendingRun]
  unfold commitSources
  rw [show build C manifestId r.pendingRun.ownerId r.pendingRun.runId _ _ _ = _ from hb]
  dsimp only
  rw [hbytes]
  dsimp only
  refine (safe_bind (S := service) _ _ _).mpr ((safe_mapError (S := service) _ _ _).mpr
    ((safe_bind (S := service) _ _ _).mpr ?_))
  rw [safe_lift]
  simp only [checkedRecapRequest, C.recapRequest.roundTrip hbytes, hvalid, ha, Bool.not_true,
    Bool.false_eq_true, if_false, if_true]
  refine safe_transaction (alongside C ours) fun m s' e' hm hs => ?_
  obtain ⟨hE, hv⟩ := h.at_transaction hp hm hs
  refine Tx.closes_mono (commitManifestTx_commits hE hp hb hcounts ha rfl hv
    (hs.2 _ hid.1 hid.2)) fun x d' hx => ⟨trivial, ?_⟩
  obtain ⟨rfl, hcommitted⟩ := hx
  exact ⟨rfl, built.runId_eq ▸ hcommitted.past⟩

theorem commit_past {seen : Db} {cap : Nat} {incomplete : Bool} (hcap : cap ≤ maxSources)
    (hseen : seen.Sourced C) (h : Engaged C ours e r state s) (hp : state.pending = true) :
    Concludes C ours r (commit C r.pendingRun (seen.selectSources r.pendingRun cap).sources
      incomplete) s e := by
  unfold commit
  split_ifs with hempty
  · exact failWith_past hC h hp _
  · exact completeEmptyRun_past hC h hp
  · refine (safe_bind (S := service) _ _ _).mpr fun s₁ hs₁ m e' hm => ?_
    have hE := h.other hp hs₁
    refine commitSources_past hC hcap hseen (hE.grows (supply_grows hm)) hp
      ⟨(hm.2.1 0).1, hE.vacant hm 0⟩ ?_
    exact fun hnone => hempty (List.isEmpty_iff.mpr hnone)

omit hC in
/-- the rest of a tick, once its last transaction has succeeded. -/
theorem Concludes.answers {p : Action RunExecutionError Unit} {t : Tick}
    (h : Concludes C ours r p s e) (ht : ∀ asked d, d.past r.runId → Advanced asked (.ok t) d) :
    Safe (S := service) (Alongside C ours) (supply ours) (always fun _ _ => True)
      (p >>= fun _ => pure t) (fun x d e' => Advanced e'.asked x d) s e := by
  refine (safe_bind (S := service) _ _ _).mpr (Safe.imp (fun x d e' hx => ?_) h)
  obtain ⟨rfl, hpast⟩ := hx
  exact ht _ d hpast

theorem proceed_advances {sourceCount : Nat} {listed : Db} {outcomes : Outcomes}
    (h : Engaged C ours e r .acquiring s) :
    Safe (S := service) (Alongside C ours) (supply ours) (always fun _ _ => True)
      (proceed C sourceCount r.pendingRun listed outcomes)
      (fun x d e' => Advanced e'.asked x d) s e := by
  refine safe_read (alongside C ours) (fun _ _ hf => hf.elim) fun m seen e₁ hm hs => ⟨trivial, ?_⟩
  have hseen := (h.other rfl hs).grows (supply_grows hm)
  refine (safe_bind (S := service) _ _ _).mpr (safe_change (alongside C ours)
    (fun _ _ hf => hf.elim) fun m₁ s₁ e₂ hm₁ hs₁ => ⟨trivial, ?_⟩)
  have hE := (hseen.other rfl hs₁).grows (supply_grows hm₁)
  have hrecorded : Engaged C ours e₂ r .acquiring (s₁.record r.runId (incompleteness outcomes
      (seen.selectSources r.pendingRun (sourceCap sourceCount)))) := by
    have hc : Change C (fun _ => True) .many .recorded s₁ (s₁.record r.runId
        (incompleteness outcomes (seen.selectSources r.pendingRun (sourceCap sourceCount)))) :=
      .recorded (by decide) (by simp)
    obtain ⟨x, hx, hf, hstate⟩ := hE.row
    obtain ⟨x', hx', hmove⟩ := hc.run_kept hE.joined.keyed.runs hx
    refine ⟨hc.joined hE.joined, hc.sourced (by decide) hE.sourced, fun u hu hd => ?_, x', hx',
      hmove.fixed.trans hf, ?_⟩
    · have hv := hE.spare u hu hd
      exact ⟨hv.outbox, hv.manifest, hv.links⟩
    · refine (hmove.state.resolve_right fun harrow => ?_).trans hstate
      simp [Kind.moves] at harrow
  exact (commit_past hC (sourceCap_le sourceCount) hseen.sourced hrecorded rfl).answers
    fun _ _ hpast => hpast

theorem acquireRun_advances {sourceCount : Nat} (h : Engaged C ours e r .acquiring s) :
    Safe (S := service) (Alongside C ours) (supply ours) (always fun _ _ => True)
      (acquireRun C sourceCount r.pendingRun) (fun x d e' => Advanced e'.asked x d) s e := by
  refine safe_read (alongside C ours) (fun _ _ hf => hf.elim) fun m listed e₁ hm hs => ⟨trivial, ?_⟩
  have hlisted := (h.other rfl hs).grows (supply_grows hm)
  refine (safe_bind (S := service) _ _ _).mpr (Safe.imp (fun x s₁ e₂ hx => ?_)
    (acquire_waits _ [] (subscribedChannels_nodup hlisted.sourced.catalogued _)
      (fun c hc => by cases hc) hlisted (fun c hc => mem_subscribedChannels hc)
      fun c hc => by cases hc))
  obtain ⟨hE, -, outcomes, rfl, hwait⟩ := hx
  dsimp only
  rcases hacq : acquired outcomes with _ | _ | _ | _
  · exact proceed_advances hC hE
  · exact proceed_advances hC hE
  · have hany : outcomes.any (fun o => isDeferred o.2) = true := by
      unfold acquired at hacq
      split_ifs at hacq with hdeferred
      exact hdeferred
    obtain ⟨o, ho, hdef⟩ := List.any_eq_true.mp hany
    exact (hwait o ho hdef).flood
  · exact (failWith_past hC hE rfl _).answers fun _ _ hpast => hpast

end

/-! ## Progress -/

section
variable {C : Contracts} {ours : Uuid → Prop} {d d' s : Db} {e e' : Supply} {runId : Uuid}

/-- the run is pending, no wait of it is active, and it is the oldest of these. -/
structure Db.Next (d : Db) (now : Instant) (r : Run) : Prop where
  mem : r ∈ d.runs
  pending : r.state.pending = true
  unhindered : d.floodWaiting r.runId now = false
  oldest : ∀ o ∈ d.runs, o.state.pending = true → d.floodWaiting o.runId now = false →
    toLex (r.createdAt, r.runId) ≤ toLex (o.createdAt, o.runId)

theorem mem_selectPending {now : Instant} {run : PendingRun} (h : d.selectPending now = some run) :
    ∃ r, d.Next now r ∧ run = r.pendingRun := by
  obtain ⟨r, hr, rfl⟩ := Option.map_eq_some_iff.mp h
  have hmem := (List.mem_insertionSort _).mp (List.mem_of_head? hr)
  simp only [List.mem_filter, Bool.and_eq_true, Bool.not_eq_true'] at hmem
  refine ⟨r, ⟨hmem.1, hmem.2.1, hmem.2.2, fun o ho hp hw => ?_⟩, rfl⟩
  have hin : o ∈ (d.runs.filter fun r =>
      r.state.pending && !d.floodWaiting r.runId now).insertionSort fun a b => toLex (a.createdAt, a.runId) ≤ toLex (b.createdAt, b.runId) :=
    (List.mem_insertionSort _).mpr (List.mem_filter.mpr ⟨ho, by simp [hp, hw]⟩)
  have hsorted := List.pairwise_insertionSort
    (fun a b : Run => toLex (a.createdAt, a.runId) ≤ toLex (b.createdAt, b.runId))
    (d.runs.filter fun r => r.state.pending && !d.floodWaiting r.runId now)
  obtain ⟨rest, hrest⟩ := List.head?_eq_some_iff.mp hr
  rw [hrest] at hin hsorted
  rcases List.mem_cons.mp hin with rfl | ho
  · exact le_rfl
  · exact (List.pairwise_cons.mp hsorted).1 o ho

/-- no run is selected when every pending run waits, and only then. -/
theorem selectPending_eq_none {now : Instant} : d.selectPending now = none ↔
    ∀ o ∈ d.runs, o.state.pending = true → d.floodWaiting o.runId now = true := by
  unfold Db.selectPending
  rw [Option.map_eq_none_iff, List.head?_eq_none_iff, ← List.length_eq_zero_iff,
    List.length_insertionSort, List.length_eq_zero_iff, List.filter_eq_nil_iff]
  refine forall₂_congr fun o _ => ?_
  simp

variable (hC : C.AcceptsTicks)
include hC

/-- a tick that starts in a database with the invariants advances. -/
theorem tick_safely_advances {sourceCount : Nat} (hj : s.Joined) (hs : s.Sourced C)
    (hv : ∀ u, ours u → ¬ e.drawn u → s.Vacant u) :
    Safe (S := service) (Alongside C ours) (supply ours) (always fun _ _ => True)
      (tick C sourceCount) (fun x d e' => Advanced e'.asked x d) s e := by
  refine safe_read (alongside C ours) (fun _ _ hf => hf.elim) fun m s₁ e₁ hm hs₁ => ⟨trivial, ?_⟩
  rcases hpick : s₁.selectPending m.now with _ | run
  · exact ⟨m.now, (hm.2.2.2 m.now).mpr (.inr rfl), hpick⟩
  obtain ⟨r, ⟨hr, hp, -, -⟩, rfl⟩ := mem_selectPending hpick
  have hkept := hs₁.keeps (I := fun d => d.Joined ∧ d.Sourced C) (fun hk _ hc hI =>
    ⟨hc.joined hI.1, hc.sourced (by rintro rfl; cases hk) hI.2⟩) ⟨hj, hs⟩
  have hE : Engaged C ours e₁ r r.state s₁ := ⟨hkept.1, hkept.2, fun u hu hd =>
    hs₁.2 u hu (hv u hu fun hdrawn => hd ((supply_grows hm).drawn u hdrawn)), r, hr, rfl, rfl⟩
  dsimp only
  split_ifs with haccepted
  · have haccepted : r.state = .accepted := haccepted
    rw [haccepted] at hE
    refine (safe_bind (S := service) _ _ _).mpr
      (safe_transaction (alongside C ours) fun m₂ s₂ e₂ hm₂ hs₂ => ?_)
    obtain ⟨hE₂, hv₂⟩ := hE.at_transaction rfl hm₂ hs₂
    refine Tx.closes_mono (beginAcquisitionTx_begins hC hE₂ hv₂) fun x d' hx => ⟨trivial, ?_⟩
    obtain ⟨rfl, hbegun⟩ := hx
    exact acquireRun_advances hC (hE₂.begun hm₂ hbegun)
  · have hacquiring : r.state = .acquiring := by
      have hne : r.state ≠ .accepted := haccepted
      revert hp hne
      cases r.state <;> decide
    rw [hacquiring] at hE
    exact acquireRun_advances hC hE

/-- **Every tick makes progress**, whatever the provider answers and the other tasks but the reaper
commit: the run that it selects is past, or a wait of it was active; and at any time the run that
would be selected is the oldest pending one without an active wait, when there is one. -/
theorem tick_advances {S : Setting} {sourceCount : Nat} {answer : Except RunExecutionError Tick}
    (h : Reachable C S d) (hv : ∀ u, ours u → d.Vacant u)
    (hr : Runs (S := service) (Alongside C ours) (supply ours) (tick C sourceCount) d
      ⟨fun _ => False, fun _ => False⟩ answer d' e') :
    (∃ s, Advanced e'.asked answer s ∧ Alongside C ours s d') ∧
      ∀ (x : Db) now,
        (∀ run, x.selectPending now = some run → ∃ r, x.Next now r ∧ run = r.pendingRun) ∧
        (x.selectPending now = none ↔
          ∀ o ∈ x.runs, o.state.pending = true → x.floodWaiting o.runId now = true) := by
  have hjoined : d.Joined := h.keeps .empty fun hc => hc.joined
  obtain ⟨s, hs, hadvanced⟩ := Safe.runs (S := service) (alongside C ours).refl
    (alongside C ours).trans (tick_safely_advances hC hjoined (h.sourced hC.toAcceptsManifests).1
      fun u hu _ => hv u hu) hr
  exact ⟨⟨s, hadvanced, hs⟩, fun x now => ⟨fun run hrun => mem_selectPending hrun,
    selectPending_eq_none⟩⟩

end

/-! ## A tick -/

namespace Sample

theorem accepting_ticks : accepting.AcceptsTicks where
  toAcceptsManifests := accepting_accepts
  request q hq := ⟨rfl, decide_eq_true hq.sources.1⟩
  acquiring _ _ := rfl
  noSources _ _ := rfl
  failure failure _ _ := by cases failure <;> rfl

/-- the owner has subscribed and asked for a digest. -/
def requested : Db :=
  (Pool.play (worker accepting (setting .many False))
    [.start (.acceptSubscription 101 (.payload (.subscription subscribe))),
      .run 0 100 (answers 5 1000 page),
      .start (.acceptRun 102 (.payload (.run request))), .run 1 100 (answers 6 2000 page)]
    ⟨[], Db.empty⟩).state

/-- the identities of the `n`-th question are those of the sample, and pairs. -/
def fresh (n k : Nat) : Nat := if k < 10 then 3000 + 10 * n + k else Nat.pair (10000 + n) k

/-- answers that draw these identities. -/
def supplying (n : Nat) : (q : Question) → q.Answer
  | .moment => ⟨7, fresh n, none⟩
  | q => answers 7 3000 page n q

def supplied (n : Nat) (q : Question) (e : Supply) : Supply :=
  match q with
  | .moment => ⟨fun u => e.drawn u ∨ ∃ k, u = fresh n k, fun t => e.asked t ∨ t = 7⟩
  | _ => e

/-- the tick selects the post and commits its manifest. -/
def requestedTick : Action RunExecutionError Tick × Db × Supply :=
  Prog.travel (S := service) supplying supplied 100
    (tick accepting 10, requested, ⟨fun _ => False, fun _ => False⟩)

theorem requested_reachable : Reachable accepting (setting .many False) requested := by
  refine ⟨_, Pool.play_reach ⟨starts ?_ id rfl, fun u _ => answers_given _ _ _ _,
    starts ?_ id rfl, fun u _ => answers_given _ _ _ _, trivial⟩⟩
  · rintro _ ⟨⟩
    simp [setting, messages]
  · rintro _ ⟨⟩
    simp [setting, messages]

theorem requested_vacant (u : Uuid) (hu : 3000 ≤ u) : requested.Vacant u := by
  have hsmall : (∀ o ∈ requested.outbox, o.outboxId < 3000) ∧ requested.manifests = [] ∧
      requested.manifestSources = [] := by decide +kernel
  obtain ⟨hout, hmanifests, hlinks⟩ := hsmall
  refine ⟨fun o ho he => absurd (hout o ho) (by rw [he]; exact Nat.not_lt.mpr hu), ?_, ?_⟩
  · rw [hmanifests]
    exact fun m hm => by cases hm
  · rw [hlinks]
    exact fun l hl => by cases hl

theorem fresh_disjoint {n n' k k' : Nat} (hn : n < 100) (hn' : n' < 100)
    (h : fresh n k = fresh n' k') : n = n' := by
  unfold fresh at h
  have hle := Nat.left_le_pair (10000 + n) k
  have hle' := Nat.left_le_pair (10000 + n') k'
  split_ifs at h
  · omega
  · omega
  · omega
  · have := (Nat.pair_eq_pair.mp h).1
    omega

theorem fresh_ours (n k : Nat) : 3000 ≤ fresh n k := by
  unfold fresh
  have hle := Nat.left_le_pair (10000 + n) k
  split_ifs <;> omega

theorem requestedTick_runs : ∃ answer, Runs (S := service)
    (Alongside accepting (3000 ≤ ·)) (supply (3000 ≤ ·)) (tick accepting 10) requested
    ⟨fun _ => False, fun _ => False⟩ (.ok answer) requestedTick.2.1 requestedTick.2.2 := by
  have hx : Exec (S := service) (Alongside accepting (3000 ≤ ·)) (supply (3000 ≤ ·))
      (tick accepting 10, requested, ⟨fun _ => False, fun _ => False⟩) requestedTick := by
    refine (travel_exec (S := service) (K := fun i (e : Supply) =>
      i ≤ 100 ∧ ∀ j < i, ∀ k, ¬ e.drawn (fresh j k)) (fun i e he => ?_) (fun i q e he => ?_) 100
      (tick accepting 10) requested ⟨fun _ => False, fun _ => False⟩ ⟨le_rfl, fun _ _ _ => id⟩).1
    · exact ⟨Nat.le_of_succ_le he.1, fun j hj => he.2 j (Nat.lt_succ_of_lt hj)⟩
    · have hfree : ∀ j < i, ∀ k, ¬ e.drawn (fresh j k) :=
        fun j hj => he.2 j (Nat.lt_succ_of_lt hj)
      cases q with
      | moment =>
        refine ⟨⟨rfl, fun n => ⟨fresh_ours i n, he.2 i (Nat.lt_succ_self i) n⟩, fun _ => Iff.rfl,
          fun _ => Iff.rfl⟩, Nat.le_of_succ_le he.1, fun j hj k => ?_⟩
        rintro (hd | ⟨n, hn⟩)
        · exact hfree j hj k hd
        · have := fresh_disjoint (lt_trans hj he.1) he.1 hn
          omega
      | _ => exact ⟨rfl, Nat.le_of_succ_le he.1, hfree⟩
  exact ⟨_, travel_runs hx rfl⟩

end Sample

/-- the tick of the sample makes progress. -/
theorem requested_tick_advances :
    Sample.requestedTick.2.1.runs.map (·.state) = [.waitingRecap] ∧
    ∃ answer s, Advanced Sample.requestedTick.2.2.asked (.ok answer) s ∧
      Alongside Sample.accepting (3000 ≤ ·) s Sample.requestedTick.2.1 := by
  obtain ⟨answer, hr⟩ := Sample.requestedTick_runs
  obtain ⟨s, hs⟩ := (tick_advances Sample.accepting_ticks Sample.requested_reachable
    Sample.requested_vacant hr).1
  exact ⟨by decide +kernel, answer, s, hs⟩

end ChannelDigests
