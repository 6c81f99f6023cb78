import ChannelDigests.Moves
import ChannelDigests.Refinement
import ChannelDigests.Documents

/-!
# Run, manifest, result and recap request fit together

* `Db.Joined`          the joint invariant of runs, manifests, results, inbox and outbox;
* `Change.joined`      every change keeps it, whoever else works on the same runs;
* `Db.Fits`            what it says of one run, state by state;
* `reachable_fits`     **every run of a reachable database fits**.
-/

namespace ChannelDigests
open Lib

/-! ## The invariant -/

/-- the request announces the manifest of the run. -/
structure Requests (row : OutboxMessage) (q : RecapRequested) (m : Manifest) (r : Run) : Prop where
  payload : row.payload = .recapRequest q
  ownerId : row.ownerId = r.ownerId
  operationId : row.operationId = some r.operationId
  manifestRun : m.runId = r.runId
  digestRunId : q.digestRunId = r.runId
  manifestRef : q.manifestRef = m.manifestId
  manifestDigest : q.manifestDigest = m.sha256
  sourceCount : q.sourceCount = m.sourceCount
  channelCount : q.channelCount = m.channelCount
  owner : q.owner = r.ownerId
  operation : q.operationId = r.operationId

/-- what holds of runs, manifests, results, inbox and outbox together. -/
structure Db.Joined (d : Db) : Prop where
  keyed : d.Keyed
  outboxKeys : KeyUnique (·.key) d.outbox
  /-- a manifest belongs to a run that is past its pending states. -/
  manifestRun : ∀ m ∈ d.manifests, ∃ r ∈ d.runs, r.runId = m.runId ∧ r.ownerId = m.ownerId ∧
    r.state.pending = false
  /-- a result belongs to a run that ended with its outcome, and to the manifest of that run. -/
  resultRun : ∀ x ∈ d.results, ∃ r ∈ d.runs, ∃ m ∈ d.manifests, r.runId = x.runId ∧
    r.ownerId = x.ownerId ∧ r.state = x.outcome.state ∧ m.runId = x.runId ∧
    m.manifestId = x.manifestId
  /-- a recap request announces the manifest of its run. -/
  requestRun : ∀ o ∈ d.outbox, ∀ runId, o.key = .recapRequest runId →
    ∃ q, ∃ m ∈ d.manifests, ∃ r ∈ d.runs, r.runId = runId ∧ Requests o q m r
  waiting : ∀ r ∈ d.runs, r.state = .waitingRecap →
    (∃ m ∈ d.manifests, m.runId = r.runId) ∧ d.queued (.recapRequest r.runId)
  partially : ∀ r ∈ d.runs, r.state = .partially → ∃ x ∈ d.results, x.runId = r.runId
  completed : ∀ r ∈ d.runs, r.state = .completed →
    (∃ x ∈ d.results, x.runId = r.runId) ∨ ∀ m ∈ d.manifests, m.runId ≠ r.runId
  handled : ∀ row ∈ d.inbox, row.state ≠ .processing

theorem Db.Joined.empty : Db.empty.Joined where
  keyed := .empty
  outboxKeys := .nil
  manifestRun _ h := by cases h
  resultRun _ h := by cases h
  requestRun _ h := by cases h
  waiting _ h := by cases h
  partially _ h := by cases h
  completed _ h := by cases h
  handled _ h := by cases h

section
variable {C : Contracts} {K : Message → Prop} {w : Crew} {k : Kind} {d d' : Db}

/-- the rows that a change adds to the inbox are handled. -/
theorem Change.inbox (h : Change C K w k d d') :
    d'.inbox = d.inbox ∨ ∃ row, d'.inbox = d.inbox ++ [row] ∧ row.state ≠ .processing := by
  have hf := h.frame .inbox
  have handled : ∀ messageId subject key sha now,
      (InboxMessage.handled messageId subject key sha now).state ≠ .processing :=
    fun _ _ _ _ _ h => by cases h
  cases h with
  | subscription _ h =>
    obtain ⟨s, d₁, ob, -, -, heq⟩ := h.effect
    exact .inr ⟨_, by rw [heq], handled _ _ _ _ _⟩
  | rejection _ _ h =>
    obtain ⟨ob, -, heq⟩ := h.effect
    exact .inr ⟨_, by rw [heq], by simp [Rejection.inboxRow]⟩
  | created _ h =>
    obtain ⟨ob, -, heq⟩ := h.effect
    exact .inr ⟨_, by rw [heq], handled _ _ _ _ _⟩
  | repeated _ h =>
    obtain ⟨ob, -, heq⟩ := h.effect
    exact .inr ⟨_, by rw [heq], handled _ _ _ _ _⟩
  | occurrence _ h =>
    obtain ⟨runs, ob, -, -, heq⟩ := h.effect
    exact .inr ⟨_, by rw [heq], handled _ _ _ _ _⟩
  | completion _ _ h _ =>
    obtain ⟨ob, -, heq⟩ := h.effect
    exact .inr ⟨_, by rw [heq], handled _ _ _ _ _⟩
  | recapFailure _ h =>
    obtain ⟨ob, -, heq⟩ := h.effect
    exact .inr ⟨_, by rw [heq], handled _ _ _ _ _⟩
  | _ => exact .inl (hf (by decide))

/-- the run of a committed manifest waits for its recap. -/
theorem ManifestCommitted.run {m : Moment} {manifest : CanonicalManifest} {request : RecapRequested}
    (h : ManifestCommitted m d d' C manifest request) :
    ∃ r ∈ d'.runs, r.runId = manifest.runId ∧ r.ownerId = manifest.ownerId ∧
      r.state = .waitingRecap := by
  obtain ⟨r, -, hopen, hmem⟩ := mem_updateWhere_isOpen (u := Run.enter .waitingRecap m.now) h.once
  simp only [Run.isOpen, Bool.and_eq_true, decide_eq_true_eq] at hopen
  exact ⟨r.enter .waitingRecap m.now, by rw [h.effect]; exact hmem, hopen.1.1, hopen.1.2, rfl⟩

/-- the recap request of a committed manifest announces it. -/
theorem ManifestCommitted.requests {m : Moment} {manifest : CanonicalManifest}
    {request : RecapRequested} (h : ManifestCommitted m d d' C manifest request) (hd : d.Keyed)
    (hc : Change C K w k d d') :
    ∃ r ∈ d'.runs, r.runId = manifest.runId ∧
      Requests (recapRequestRow manifest request (m.ids 0) m.now) request (manifest.row m.now) r := by
  obtain ⟨r, hr, h1, h2, h3⟩ := hc.holdsRun hd.runs h.owned
  have ha := h.announced
  simp only [RecapRequested.announces, Bool.and_eq_true, decide_eq_true_eq] at ha
  obtain ⟨⟨⟨⟨⟨e1, e2⟩, e3⟩, e4⟩, e5⟩, e6⟩ := ha
  exact ⟨r, hr, h1, ⟨rfl, h2.symm, congrArg some h3.symm, h1.symm, e2.trans h1.symm, e3, e4, e5, e6,
    e1.trans h2.symm, h3.symm⟩⟩

theorem Requests.change {row row' : OutboxMessage} {q : RecapRequested} {m m' : Manifest}
    {r r' : Run} (h : Requests row q m r) (ho : OutboxMoves row row') (hm : ManifestMoves m m')
    (hr : RunMoves k r r') (hk : row.key.isRegistration = false) : Requests row' q m' r' where
  payload := (ho.payload hk).trans h.payload
  ownerId := ho.ownerId.trans (h.ownerId.trans hr.ownerId.symm)
  operationId := ho.operationId.trans (h.operationId.trans (congrArg some hr.operationId.symm))
  manifestRun := hm.runId.trans (h.manifestRun.trans hr.runId.symm)
  digestRunId := h.digestRunId.trans hr.runId.symm
  manifestRef := h.manifestRef.trans hm.manifestId.symm
  manifestDigest := h.manifestDigest.trans hm.sha256.symm
  sourceCount := h.sourceCount.trans hm.counts.1.symm
  channelCount := h.channelCount.trans hm.counts.2.symm
  owner := h.owner.trans hr.ownerId.symm
  operation := h.operation.trans hr.operationId.symm

theorem Outcome.state_terminal (o : Outcome) : o.state.terminal = true := by cases o <;> rfl

theorem RunState.terminal_not_pending {a : RunState} (h : a.terminal = true) : a.pending = false := by
  revert h
  cases a <;> decide

/-- the kept run, manifest and result of a result that was stored. -/
theorem Change.resultRun_kept (h : Change C K w k d d') (hd : d.Joined) {x : DigestResult}
    (hx : x ∈ d.results) :
    ∃ r ∈ d'.runs, ∃ m ∈ d'.manifests, r.runId = x.runId ∧ r.ownerId = x.ownerId ∧
      r.state = x.outcome.state ∧ m.runId = x.runId ∧ m.manifestId = x.manifestId := by
  obtain ⟨r, hr, m, hm, h1, h2, h3, h4, h5⟩ := hd.resultRun x hx
  obtain ⟨r', hr', hmove⟩ := h.run_kept hd.keyed.runs hr
  obtain ⟨m', hm', hmm⟩ := h.manifest_kept hm
  have hstate := hmove.terminal (h3 ▸ x.outcome.state_terminal)
  exact ⟨r', hr', m', hm', hmove.runId.trans h1, hmove.ownerId.trans h2, hstate.trans h3,
    hmm.runId.trans h4, hmm.manifestId.trans h5⟩

/-- the result that a change adds belongs to the run it settles. -/
theorem Change.resultRun (h : Change C K w k d d') (hd : d.Joined) {x : DigestResult}
    (hx : x ∈ d'.results) :
    ∃ r ∈ d'.runs, ∃ m ∈ d'.manifests, r.runId = x.runId ∧ r.ownerId = x.ownerId ∧
      r.state = x.outcome.state ∧ m.runId = x.runId ∧ m.manifestId = x.manifestId := by
  rcases h.results with hd' | ⟨_, _, _, _, _, _, _, mf, -, -, hc, -⟩ | ⟨_, _, _, _, _, -, hc⟩
  · exact h.resultRun_kept hd (hd' ▸ hx)
  · obtain ⟨⟨r, hr, h1, h2, h3⟩, ⟨hm, e1, -⟩, hd'⟩ := hc.settled hd.keyed
    rw [hd', List.mem_append, List.mem_singleton] at hx
    rcases hx with hx | rfl
    · exact h.resultRun_kept hd hx
    · exact ⟨r, hr, mf, hm, h1, h2, h3, e1, rfl⟩
  · obtain ⟨⟨r, hr, h1, h2, h3, -⟩, ⟨mf, hm, e1, -, -, e4⟩, hd'⟩ := hc.settled
    rw [hd', List.mem_append, List.mem_singleton] at hx
    rcases hx with hx | rfl
    · exact h.resultRun_kept hd hx
    · exact ⟨r, hr, mf, hm, h1, h2, h3, e1, e4⟩

/-- a run that did not exist, or the run it was. -/
theorem Change.run_before (h : Change C K w k d d') (hd : d.Keyed) {r' : Run} (hr : r' ∈ d'.runs) :
    r'.state = .accepted ∨
      ∃ r ∈ d.runs, RunMoves k r r' ∧ (r'.state = r.state ∨ Moved C d d' r r') := by
  rcases h.run_origin hd.runs hr with ⟨r, hold, hm⟩ | ⟨-, ha, -⟩
  · exact .inr ⟨r, hold, hm, h.moved hd hold hr hm.runId⟩
  · exact .inl ha

/-- a pending run has no manifest. -/
theorem Db.Joined.pending_manifest (hd : d.Joined) {r : Run} (hr : r ∈ d.runs)
    (hp : r.state.pending = true) : ∀ m ∈ d.manifests, m.runId ≠ r.runId := by
  intro m hm hid
  obtain ⟨o, ho, h1, -, h3⟩ := hd.manifestRun m hm
  obtain rfl := hd.keyed.runs.eq ho hr (h1.trans hid)
  simp [hp] at h3

/-- a run without a manifest gets one only when it starts to wait. -/
theorem Change.no_manifest (h : Change C K w k d d') (hd : d.Keyed) {r r' : Run}
    (hn : ∀ m ∈ d.manifests, m.runId ≠ r.runId) (hr' : r' ∈ d'.runs) (hid : r'.runId = r.runId)
    (hs : r'.state ≠ .waitingRecap) : ∀ m ∈ d'.manifests, m.runId ≠ r'.runId := by
  intro m' hm' he
  rcases h.manifest_origin hm' with ⟨m, hm, hmm⟩ | ⟨m, manifest, request, hc, -, rfl⟩
  · exact hn m hm (hmm.runId.symm.trans (he.trans hid))
  · obtain ⟨o, ho, h1, -, h3⟩ := hc.run
    obtain rfl := (h.keyed hd).runs.eq ho hr' (h1.trans he)
    exact hs h3

theorem completionOutcome_ne_waiting (omitted : Nat) (incomplete : Bool) :
    (completionOutcome omitted incomplete).state ≠ .waitingRecap := by
  unfold completionOutcome
  split_ifs <;> decide

/-- **Every change keeps runs, manifests, results and recap requests together.** -/
theorem Change.joined (h : Change C K w k d d') (hd : d.Joined) : d'.Joined where
  keyed := h.keyed hd.keyed
  outboxKeys := h.outboxKeys hd.keyed hd.outboxKeys
  manifestRun m' hm' := by
    rcases h.manifest_origin hm' with ⟨m, hm, hmm⟩ | ⟨m, manifest, request, hc, -, rfl⟩
    · obtain ⟨r, hr, h1, h2, h3⟩ := hd.manifestRun m hm
      obtain ⟨r', hr', hmove⟩ := h.run_kept hd.keyed.runs hr
      refine ⟨r', hr', ?_, ?_, Bool.eq_false_iff.mpr fun hp => ?_⟩
      · rw [hmove.runId, hmm.runId, h1]
      · rw [hmove.ownerId, hmm.ownerId, h2]
      · simp [hmove.pending hp] at h3
    · obtain ⟨r, hr, h1, h2, h3⟩ := hc.run
      exact ⟨r, hr, h1, h2, by rw [h3]; rfl⟩
  resultRun x hx := h.resultRun hd hx
  requestRun o' ho' runId hkey := by
    rcases h.outbox_origin hd.keyed ho' with ⟨o, ho, hmove⟩ | hq
    · have hk : o.key = .recapRequest runId := hmove.key.symm.trans hkey
      obtain ⟨q, m, hm, r, hr, h1, hreq⟩ := hd.requestRun o ho runId hk
      obtain ⟨m', hm', hmm⟩ := h.manifest_kept hm
      obtain ⟨r', hr', hrr⟩ := h.run_kept hd.keyed.runs hr
      exact ⟨q, m', hm', r', hr', hrr.runId.trans h1, hreq.change hmove hmm hrr (by rw [hk]; rfl)⟩
    · cases hq with
      | @request m manifest request hc =>
        cases hkey
        obtain ⟨r, hr, h1, hreq⟩ := hc.requests hd.keyed h
        exact ⟨request, manifest.row m.now, by rw [hc.effect]; simp, r, hr, h1, hreq⟩
      | registration hreg => simp [hkey, OutboxKey.isRegistration] at hreg
      | _ => cases hkey
  waiting r' hr' hs := by
    rcases h.run_before hd.keyed hr' with ha | ⟨r, hr, hmove, he | hmoved⟩
    · simp [ha] at hs
    · obtain ⟨⟨m, hm, hid⟩, hq⟩ := hd.waiting r hr (he.symm.trans hs)
      obtain ⟨m', hm', hmm⟩ := h.manifest_kept hm
      exact ⟨⟨m', hm', by rw [hmm.runId, hid, hmove.runId]⟩,
        hmove.runId ▸ h.queued hd.keyed hq⟩
    · cases hmoved with
      | @manifest m manifest request hc h1 _ _ _ =>
        rw [hmove.runId, ← h1]
        exact ⟨⟨manifest.row m.now, by rw [hc.effect]; simp, rfl⟩,
          recapRequestRow manifest request (m.ids 0) m.now, by rw [hc.effect]; simp, rfl⟩
      | completion _ _ _ _ h' => exact absurd (h'.symm.trans hs) (completionOutcome_ne_waiting _ _)
      | acquiring _ h' => simp [h'] at hs
      | empty _ _ h' => simp [h'] at hs
      | failed _ _ h' => simp [h'] at hs
      | recapFailure _ _ _ _ h' => simp [h'] at hs
      | reaped _ _ _ h' => simp [h'] at hs
  partially r' hr' hs := by
    rcases h.run_before hd.keyed hr' with ha | ⟨r, hr, hmove, he | hmoved⟩
    · simp [ha] at hs
    · obtain ⟨x, hx, hid⟩ := hd.partially r hr (he.symm.trans hs)
      exact ⟨x, h.result_kept hx, hid.trans hmove.runId.symm⟩
    · cases hmoved with
      | completion hc h1 _ _ _ =>
        obtain ⟨-, -, hx⟩ := hc.settled hd.keyed
        exact ⟨_, by rw [hx]; exact List.mem_append_right _ List.mem_cons_self,
          h1.trans hmove.runId.symm⟩
      | acquiring _ h' => simp [h'] at hs
      | empty _ _ h' => simp [h'] at hs
      | failed _ _ h' => simp [h'] at hs
      | manifest _ _ _ _ h' => simp [h'] at hs
      | recapFailure _ _ _ _ h' => simp [h'] at hs
      | reaped _ _ _ h' => simp [h'] at hs
  completed r' hr' hs := by
    rcases h.run_before hd.keyed hr' with ha | ⟨r, hr, hmove, he | hmoved⟩
    · simp [ha] at hs
    · rcases hd.completed r hr (he.symm.trans hs) with ⟨x, hx, hid⟩ | hn
      · exact .inl ⟨x, h.result_kept hx, hid.trans hmove.runId.symm⟩
      · exact .inr (h.no_manifest hd.keyed hn hr' hmove.runId (by rw [hs]; decide))
    · cases hmoved with
      | empty _ hp _ =>
        exact .inr (h.no_manifest hd.keyed (hd.pending_manifest hr hp) hr' hmove.runId
          (by rw [hs]; decide))
      | completion hc h1 _ _ _ =>
        obtain ⟨-, -, hx⟩ := hc.settled hd.keyed
        exact .inl ⟨_, by rw [hx]; exact List.mem_append_right _ List.mem_cons_self,
          h1.trans hmove.runId.symm⟩
      | acquiring _ h' => simp [h'] at hs
      | failed _ _ h' => simp [h'] at hs
      | manifest _ _ _ _ h' => simp [h'] at hs
      | recapFailure _ _ _ _ h' => simp [h'] at hs
      | reaped _ _ _ h' => simp [h'] at hs
  handled row hrow := by
    rcases h.inbox with hd' | ⟨row', hd', hs⟩
    · exact hd.handled row (hd' ▸ hrow)
    · rw [hd', List.mem_append, List.mem_singleton] at hrow
      rcases hrow with hrow | rfl
      · exact hd.handled row hrow
      · exact hs

end

/-! ## State by state -/

def Db.manifestsOf (d : Db) (runId : Uuid) : List Manifest :=
  d.manifests.filter fun m => m.runId = runId

/-- the outcomes of the results of a run. -/
def Db.outcomesOf (d : Db) (runId : Uuid) : List Outcome :=
  (d.results.filter fun x => x.runId = runId).map (·.outcome)

/-- the recap requests of a run. -/
def Db.requestsOf (d : Db) (runId : Uuid) : List OutboxMessage :=
  d.outbox.filter fun o => o.key = .recapRequest runId

/-- what a run has, state by state. -/
def Db.Fits (d : Db) (r : Run) : Prop :=
  match r.state with
  | .accepted | .acquiring =>
    d.manifestsOf r.runId = [] ∧ d.outcomesOf r.runId = [] ∧ d.requestsOf r.runId = []
  | .waitingRecap =>
    (∃ m, d.manifestsOf r.runId = [m]) ∧ (∃ o, d.requestsOf r.runId = [o]) ∧
      d.outcomesOf r.runId = []
  | .partially => (∃ m, d.manifestsOf r.runId = [m]) ∧ d.outcomesOf r.runId = [.partially]
  | .completed =>
    ((∃ m, d.manifestsOf r.runId = [m]) ∧ d.outcomesOf r.runId = [.completed]) ∨
      (d.manifestsOf r.runId = [] ∧ d.outcomesOf r.runId = [])
  | .failed => d.outcomesOf r.runId = [] ∨ d.outcomesOf r.runId = [.failed]

section
variable {d : Db} {r : Run}

/-- a run without a result has no outcome. -/
theorem outcomesOf_nil (h : ¬ ∃ x ∈ d.results, x.runId = r.runId) : d.outcomesOf r.runId = [] := by
  unfold Db.outcomesOf
  rw [List.filter_eq_nil_iff.mpr fun x hx he => h ⟨x, hx, of_decide_eq_true he⟩]
  rfl

theorem manifestsOf_nil (h : ∀ m ∈ d.manifests, m.runId ≠ r.runId) : d.manifestsOf r.runId = [] :=
  List.filter_eq_nil_iff.mpr fun m hm he => h m hm (of_decide_eq_true he)

namespace Db.Joined

theorem manifestsOf_eq (hd : d.Joined) (h : ∃ m ∈ d.manifests, m.runId = r.runId) :
    ∃ m, d.manifestsOf r.runId = [m] := by
  obtain ⟨m, hm, hid⟩ := h
  exact ⟨m, by rw [← hid]; exact hd.keyed.manifestRuns.filter_eq hm⟩

variable (hd : d.Joined) (hr : r ∈ d.runs)
include hd hr

/-- the one result of a run has the outcome that the run ended with. -/
theorem outcomesOf_eq (h : ∃ x ∈ d.results, x.runId = r.runId) :
    ∃ o, d.outcomesOf r.runId = [o] ∧ r.state = o.state ∧ ∃ m, d.manifestsOf r.runId = [m] := by
  obtain ⟨x, hx, hid⟩ := h
  obtain ⟨r', hr', m, hm, h1, -, h3, h4, -⟩ := hd.resultRun x hx
  obtain rfl := hd.keyed.runs.eq hr' hr (h1.trans hid)
  refine ⟨x.outcome, ?_, h3, hd.manifestsOf_eq ⟨m, hm, h4.trans h1.symm⟩⟩
  unfold Db.outcomesOf
  rw [← hid, hd.keyed.resultRuns.filter_eq hx]
  rfl

/-- a state that is no outcome excludes a result. -/
theorem no_outcome (h : ∀ o : Outcome, r.state ≠ o.state) : d.outcomesOf r.runId = [] := by
  refine outcomesOf_nil fun hx => ?_
  obtain ⟨o, -, ho, -⟩ := hd.outcomesOf_eq hr hx
  exact h o ho

/-- the run of a pending state has nothing. -/
theorem fits_pending (hp : r.state.pending = true) :
    d.manifestsOf r.runId = [] ∧ d.outcomesOf r.runId = [] ∧ d.requestsOf r.runId = [] := by
  have hm := hd.pending_manifest hr hp
  refine ⟨manifestsOf_nil hm, hd.no_outcome hr fun o he => ?_,
    List.filter_eq_nil_iff.mpr fun o ho he => ?_⟩
  · rw [he] at hp
    cases o <;> cases hp
  · obtain ⟨q, m, hmem, r', -, h1, hreq⟩ := hd.requestRun o ho r.runId (of_decide_eq_true he)
    exact hm m hmem (hreq.manifestRun.trans h1)

/-- **The joint invariant, state by state.** -/
theorem fits : d.Fits r := by
  have one : ∀ o, r.state = o → (∃ x ∈ d.results, x.runId = r.runId) → ∀ out : Outcome,
      out.state = o → (∃ m, d.manifestsOf r.runId = [m]) ∧ d.outcomesOf r.runId = [out] := by
    intro o hs hx out hout
    obtain ⟨out', hout', he, hm⟩ := hd.outcomesOf_eq hr hx
    have : out' = out := by
      rw [hs, ← hout] at he
      revert he
      cases out <;> cases out' <;> decide
    exact ⟨hm, this ▸ hout'⟩
  unfold Db.Fits
  cases hs : r.state with
  | accepted => exact hd.fits_pending hr (by rw [hs]; rfl)
  | acquiring => exact hd.fits_pending hr (by rw [hs]; rfl)
  | waitingRecap =>
    obtain ⟨hm, o, ho, hk⟩ := hd.waiting r hr hs
    refine ⟨hd.manifestsOf_eq hm, ⟨o, ?_⟩, hd.no_outcome hr fun o he => ?_⟩
    · unfold Db.requestsOf
      rw [← hk]
      exact hd.outboxKeys.filter_eq ho
    · rw [hs] at he
      cases o <;> cases he
  | partially => exact one _ hs (hd.partially r hr hs) .partially rfl
  | completed =>
    refine (hd.completed r hr hs).imp (fun hx => one _ hs hx .completed rfl) fun hn => ?_
    refine ⟨manifestsOf_nil hn, outcomesOf_nil fun hx => ?_⟩
    obtain ⟨o, -, -, m, hm⟩ := hd.outcomesOf_eq hr hx
    rw [manifestsOf_nil hn] at hm
    cases hm
  | failed =>
    by_cases hx : ∃ x ∈ d.results, x.runId = r.runId
    · exact .inr (one _ hs hx .failed rfl).2
    · exact .inl (outcomesOf_nil hx)

end Db.Joined

end

/-- **Runs, manifests, results and recap requests fit together** in every reachable database,
whatever the messages and however many executors work on the same runs. -/
theorem reachable_fits {C : Contracts} {S : Setting} {d : Db} (h : Reachable C S d) :
    (∀ r ∈ d.runs, d.Fits r) ∧
    (∀ o ∈ d.outbox, ∀ runId, o.key = .recapRequest runId →
      ∃ q, ∃ m ∈ d.manifests, ∃ r ∈ d.runs, r.runId = runId ∧ Requests o q m r) ∧
    (∀ m ∈ d.manifests, ∃ r ∈ d.runs, r.runId = m.runId ∧ m.ownerId = r.ownerId) ∧
    (∀ x ∈ d.results, ∃ r ∈ d.runs, r.runId = x.runId ∧ x.ownerId = r.ownerId) ∧
    ∀ row ∈ d.inbox, row.state ≠ .processing := by
  have hd : d.Joined := h.keeps .empty fun hc => hc.joined
  refine ⟨fun r hr => hd.fits hr, hd.requestRun, fun m hm => ?_, fun x hx => ?_, hd.handled⟩
  · obtain ⟨r, hr, h1, h2, -⟩ := hd.manifestRun m hm
    exact ⟨r, hr, h1, h2.symm⟩
  · obtain ⟨r, hr, m, hm, h1, h2, -⟩ := hd.resultRun x hx
    exact ⟨r, hr, h1, h2.symm⟩

theorem settled_fits : Sample.settled.runs.map (·.state) = [.completed] ∧
    Sample.settled.requestsOf 50 ≠ [] ∧ ∀ r ∈ Sample.settled.runs, Sample.settled.Fits r :=
  ⟨by decide +kernel, by decide +kernel, (reachable_fits Sample.settled_reachable).1⟩

end ChannelDigests
