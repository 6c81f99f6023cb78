import ChannelDigests.Walks

/-!
# Rules of the executor

What has to hold at each step of a walk and of a tick so that the tick is safe, for any
interference `R`, guarantee `H` and outcome `Q`.

* `WalkStep`      the steps of a walk: a checkpoint, an appended text, a withdrawal;
* `CallStep`      the same steps with what the call for one request writes;
* `call_keeps`, `execute_keeps`, `acquire_keeps`   walks keep what their steps keep;
* `TickRule`      the obligations of a tick, with what is known of its run as it goes;
* `tick_safe`     a tick that meets them is safe.
-/

set_option linter.unusedSectionVars false

namespace ChannelDigests
open Lib Prog

/-- one step of a walk. -/
inductive WalkStep (C : Contracts) : Db → Db → Prop where
  | lease {d} (row : Lease) : WalkStep C d (d.putLease row)
  | append {d d'} (o : ObservedRevision) (revisionId : Uuid) :
      d.appendRevision (o.row revisionId (C.textDigest o.body)) = some d' → WalkStep C d d'
  | withdrawal {d} (channelId : Uuid) (g : Int → Bool) (now : Instant) :
      WalkStep C d (d.withdraw channelId g now)

/-- it is a change that moves no run. -/
theorem WalkStep.changes {C : Contracts} {d d' : Db} (h : WalkStep C d d') :
    ∃ k, Change C (fun _ => True) .one k d d' ∧ k ≠ .empty ∧ k ≠ .manifest := by
  cases h with
  | lease row => exact ⟨_, .lease, by decide, by decide⟩
  | append o revisionId ha => exact ⟨_, .append ha, by decide, by decide⟩
  | withdrawal channelId g now => exact ⟨_, .withdrawal, by decide, by decide⟩

/-- one step of the call for a request: it leaves a checkpoint of its channel and run, stores a post
of its window, or withdraws messages of its channel. -/
inductive CallStep (C : Contracts) (request : AcquisitionRequest) : Db → Db → Prop where
  | lease {d} (at_ : Cursor) (state : CheckpointState) (wait : Option Nat) (holder : Uuid)
      (now : Instant) : CallStep C request d
        (d.putLease (checkpointLease request at_ state wait holder now))
  | append {d d'} (post : ProviderPost) (published : Instant) (revisionId : Uuid) :
      request.takes post published →
      d.appendRevision (postRow C request post published revisionId) = some d' →
      CallStep C request d d'
  | withdrawal {d} (g : Int → Bool) (now : Instant) :
      CallStep C request d (d.withdraw request.channelId g now)

theorem CallStep.walk {C : Contracts} {request : AcquisitionRequest} {d d' : Db}
    (h : CallStep C request d d') : WalkStep C d d' := by
  cases h with
  | lease at_ state wait holder now => exact .lease _
  | append post published revisionId _ ha =>
    exact .append (observation request post published) revisionId ha
  | withdrawal g now => exact .withdrawal _ _ _

section
variable {C : Contracts} {E : Type} {R H : Db → Db → Prop}
  {env : E → (q : Question) → q.Answer → E → Prop} {faulty : Prop}

/-! ## Walks -/

section
variable {I : Db → Prop}

/-- what a part of a walk keeps. -/
abbrev Keeps (R H : Db → Db → Prop) (env : E → (q : Question) → q.Answer → E → Prop)
    (I : Db → Prop) {α : Type} (p : Action AcquisitionError α) (s : Db) (e : E) : Prop :=
  Safe (S := service) R env (always H) p (fun _ d _ => I d) s e

theorem keeps_bind {α β : Type} {p : Action AcquisitionError α}
    {k : α → Action AcquisitionError β} {s : Db} {e : E} (hp : Keeps R H env I p s e)
    (hk : ∀ a s' e', I s' → Keeps R H env I (k a) s' e') : Keeps R H env I (p >>= k) s e := by
  refine (safe_bind (S := service) _ _ _).mpr (Safe.imp (fun r s' e' h => ?_) hp)
  cases r with
  | ok a => exact hk a s' e' h
  | error x => exact h

/-- `I` is kept by the others and by the steps of the call for `request`, which satisfy `H`. -/
structure CallRule (C : Contracts) (request : AcquisitionRequest) (R H : Db → Db → Prop)
    (env : E → (q : Question) → q.Answer → E → Prop) (faulty : Prop) (I : Db → Prop) : Prop where
  surrounds : Surrounds R env faulty
  other : ∀ {d d'}, R d d' → I d → I d'
  idle : ∀ d, H d d
  step : ∀ {d d'}, I d → CallStep C request d d' → H d d' ∧ I d'

section
variable {request : AcquisitionRequest} (w : CallRule C request R H env faulty I)
include w

theorem keeps_step {x : AcquisitionError} {f : Moment → Db → Db} {s : Db} {e : E} (hs : I s)
    (h : ∀ m d, CallStep C request d (f m d)) :
    Keeps R H env I (statement fun m => .change x (f m) fun _ => ()) s e :=
  safe_change w.surrounds (fun s' hs' _ => ⟨w.idle s', fun _ => w.other hs' hs⟩)
    fun m s' _ _ hs' => w.step (w.other hs' hs) (h m s')

theorem checkpoint_keeps {at_ : Cursor} {state : CheckpointState} {wait : Option Nat} {s : Db}
    {e : E} (hs : I s) : Keeps R H env I (checkpoint request at_ state wait) s e :=
  keeps_step w hs fun _ _ => .lease _ _ _ _ _

theorem append_keeps {post : ProviderPost} {published : Instant} {s : Db} {e : E}
    (ht : request.takes post published) (hs : I s) :
    Keeps R H env I (append C .unavailable (observation request post published)) s e := by
  refine safe_transaction w.surrounds fun m s' e' _ hs' => ?_
  unfold Tx.closes
  simp only [Tx.wp_bind, guarded, Tx.wp_attempt]
  refine ⟨fun _ => ⟨w.idle s', w.other hs' hs⟩, fun _ d' hd => ?_, fun _ _ => ⟨w.idle s', w.other hs' hs⟩⟩
  split at hd
  · cases hd
  · next d₁ hd₁ =>
    cases hd
    exact w.step (w.other hs' hs) (.append post published _ ht hd₁)

theorem withdrawAbsent_keeps {requested : Option Int} {page : ProviderPage} {s : Db} {e : E}
    (hs : I s) : Keeps R H env I (withdrawAbsent request.channelId requested page) s e := by
  unfold withdrawAbsent
  split
  · exact hs
  · exact keeps_step w hs fun _ _ => .withdrawal _ _

theorem storePosts_keeps (posts : List ProviderPost) (st : Stored) {s : Db} {e : E} (hs : I s) :
    Keeps R H env I (storePosts C request posts st) s e := by
  induction posts generalizing st s e with
  | nil => exact hs
  | cons post posts ih =>
    unfold storePosts
    split_ifs with hst
    · exact ih st hs
    · split
      · exact hs
      next published hpublished =>
      dsimp only
      split_ifs with hold hnew
      · exact ih _ hs
      · exact ih _ hs
      · exact ih _ hs
      · have ht : request.takes post published :=
          ⟨by simpa using hst, hpublished, not_lt.mp hold, not_le.mp hnew⟩
        exact keeps_bind (append_keeps w ht hs) fun _ s' e' hs' => ih _ hs'

theorem finish_keeps {at_ : Cursor} {s : Db} {e : E} (hs : I s) :
    Keeps R H env I (finish request at_) s e :=
  keeps_bind (checkpoint_keeps w hs) fun _ _ _ h => h

theorem walk_keeps {channel : Nat} (n : Nat) (at_ : Cursor) (seen : List (Int × Digest)) {s : Db}
    {e : E} (hs : I s) : Keeps R H env I (walk C request channel n at_ seen) s e := by
  induction n generalizing at_ seen s e with
  | zero => exact finish_keeps w hs
  | succ n ih =>
    unfold walk
    have hcheck : ∀ {at_ : Cursor} {state : CheckpointState} {wait : Option Nat} {s : Db} {e : E},
        I s → Keeps R H env I (checkpoint request at_ state wait) s e :=
      fun h => checkpoint_keeps w h
    refine keeps_bind (fun s' hs' _ _ _ => w.other hs' hs) fun reply s' e' hs' => ?_
    split
    · exact keeps_bind (hcheck hs') fun _ _ _ h => h
    · refine keeps_bind (storePosts_keeps w _ _ hs')
        fun st s₁ e₁ h₁ => ?_
      refine keeps_bind (withdrawAbsent_keeps w h₁)
        fun _ s₂ e₂ h₂ => ?_
      refine keeps_bind (hcheck h₂) fun _ s₃ e₃ h₃ => ?_
      exact (safe_ite (S := service) _ _ _ _).mpr
        ⟨fun _ => finish_keeps w h₃, fun _ => ih _ _ h₃⟩
    · split_ifs
      · exact keeps_bind (hcheck hs') fun _ _ _ h => h
      · exact hs'

/-- **A call keeps what its steps keep**, whatever the provider answers. -/
theorem call_keeps {s : Db} {e : E} (hs : I s) : Keeps R H env I (execute C request) s e := by
  unfold execute resume
  refine keeps_bind
    (keeps_bind ?_ fun start s' _ h => h) fun at_ s' e' hs' => ?_
  · exact safe_change w.surrounds (fun s' hs' _ => ⟨w.idle s', fun _ => w.other hs' hs⟩)
      fun _ s' _ _ hs' => ⟨w.idle s', w.other hs' hs⟩
  · split_ifs
    · exact hs'
    · refine keeps_bind ?_ fun channel s₁ e₁ h₁ =>
        walk_keeps w _ _ _ h₁
      unfold resolve
      refine keeps_bind (fun s₁ h₁ _ _ _ => w.other h₁ hs') fun reply s₁ e₁ h₁ => ?_
      split
      · exact h₁
      · exact keeps_bind (checkpoint_keeps w h₁)
          fun _ _ _ h => h
      · exact h₁

end

/-- `I` is kept by the others and by the steps of a walk, which satisfy `H`. -/
structure WalkRule (C : Contracts) (R H : Db → Db → Prop)
    (env : E → (q : Question) → q.Answer → E → Prop) (faulty : Prop) (I : Db → Prop) : Prop where
  surrounds : Surrounds R env faulty
  other : ∀ {d d'}, R d d' → I d → I d'
  idle : ∀ d, H d d
  step : ∀ {d d'}, I d → WalkStep C d d' → H d d' ∧ I d'

theorem WalkRule.call (w : WalkRule C R H env faulty I) (request : AcquisitionRequest) :
    CallRule C request R H env faulty I where
  surrounds := w.surrounds
  other := w.other
  idle := w.idle
  step hd hs := w.step hd hs.walk

/-- **A walk keeps what its steps keep**, whatever the provider answers. -/
theorem execute_keeps (w : WalkRule C R H env faulty I) {request : AcquisitionRequest} {s : Db}
    {e : E} (hs : I s) : Keeps R H env I (execute C request) s e := call_keeps (w.call request) hs

end

/-! ## Ticks -/

/-- the walks of a tick keep what the steps of each of them keep, and end one for each channel. -/
theorem acquire_calls {I : Db → Prop} {run : PendingRun} (channels : List (Uuid × String))
    (w : ∀ channel ∈ channels, CallRule C (run.request channel) R H env faulty I) {s : Db} {e : E}
    (hs : I s) :
    Safe (S := service) R env (always H) (acquire C run channels)
      (fun r d _ => I d ∧ ∃ outcomes, r = .ok outcomes ∧
        outcomes.map (·.1) = channels.map (·.1)) s e := by
  induction channels generalizing s e with
  | nil => exact ⟨hs, [], rfl, rfl⟩
  | cons channel channels ih =>
    refine (safe_bind (S := service) _ _ _).mpr ((safe_outcome (S := service) _ _).mpr
      (Safe.imp (fun r s' e' h => ?_) (call_keeps (w channel List.mem_cons_self) hs)))
    refine (safe_bind (S := service) _ _ _).mpr (Safe.imp (fun _ s' e' h' => ?_)
      (ih (fun c hc => w c (List.mem_cons_of_mem _ hc)) h))
    obtain ⟨hI, rest, rfl, hrest⟩ := h'
    exact ⟨hI, (channel.1, r) :: rest, rfl, by simp [hrest]⟩

theorem acquire_keeps {I : Db → Prop} (w : WalkRule C R H env faulty I) {run : PendingRun}
    (channels : List (Uuid × String)) {s : Db} {e : E} (hs : I s) :
    Safe (S := service) R env (always H) (acquire C run channels)
      (fun r d _ => I d ∧ ∃ outcomes, r = .ok outcomes ∧
        outcomes.map (·.1) = channels.map (·.1)) s e :=
  acquire_calls channels (fun _ _ => w.call _) hs

/-- the run, the listed channels, the outcomes and the seen state of a tick that proceeds. -/
structure Proceeding where
  run : PendingRun
  listed : Db
  outcomes : Outcomes
  seen : Db

namespace Proceeding

/-- what the tick selected. -/
def selection (p : Proceeding) (sourceCount : Nat) : Selection :=
  p.seen.selectSources p.run (sourceCap sourceCount)

/-- the flag that the tick recorded. -/
def incomplete (p : Proceeding) (sourceCount : Nat) : Bool :=
  incompleteness p.outcomes (p.selection sourceCount)

/-- what the tick answers. -/
def answer (p : Proceeding) : Tick := .proceeded p.run p.listed p.outcomes p.seen

/-- one walk for each listed channel, none deferred and not all failed. -/
structure Walked (p : Proceeding) : Prop where
  channels : p.outcomes.map (·.1) = (p.listed.subscribedChannels p.run.ownerId).map (·.1)
  proceeds : acquired p.outcomes = .complete ∨ acquired p.outcomes = .incomplete

end Proceeding

/-- what a tick owes: `N` is known before a run is picked, `I` while its channels are acquired and
`J` once its completeness is recorded. -/
structure TickRule (C : Contracts) (sourceCount : Nat) (R H : Db → Db → Prop)
    (env : E → (q : Question) → q.Answer → E → Prop) (faulty : Prop)
    (N : Db → Prop) (I : PendingRun → Db → Prop) (J : Proceeding → Db → Prop)
    (Q : Except RunExecutionError Tick → Db → Prop) : Prop where
  walk : ∀ run, WalkRule C R H env faulty (I run)
  before : ∀ {d d'}, R d d' → N d → N d'
  lost : ∀ {x d}, N d → Q (.error x) d
  idle : ∀ {d}, N d → Q (.ok .idle) d
  pick : ∀ {now d run}, N d → d.selectPending now = some run → I run d
  begun : ∀ {m run d d'}, I run d → AcquisitionBegun m d d' run.runId run.ownerId →
    H d d' ∧ I run d'
  dropped : ∀ {x run d}, I run d → Q (.error x) d
  taken : ∀ {run d}, I run d → Q (.ok (.taken run)) d
  deferred : ∀ {run listed outcomes d}, I run d → Q (.ok (.deferred run listed outcomes)) d
  unavailable : ∀ {m run listed outcomes d d'}, I run d →
    RunFailed m d d' run.runId run.ownerId .providerUnavailable →
    H d d' ∧ Q (.ok (.unavailable run listed outcomes)) d'
  record : ∀ {p : Proceeding} {d}, I p.run p.listed → I p.run p.seen → p.Walked → R p.seen d →
    H d (d.record p.run.runId (p.incomplete sourceCount)) ∧
      J p (d.record p.run.runId (p.incomplete sourceCount))
  recorded : ∀ {p d d'}, R d d' → J p d → J p d'
  stopped : ∀ {x p d}, J p d → Q (.error x) d
  replayed : ∀ {p d}, J p d → (∃ r ∈ d.manifests, r.runId = p.run.runId) → Q (.ok p.answer) d
  failed : ∀ {m p failure d d'}, J p d →
    RunFailed m d d' p.run.runId p.run.ownerId failure → H d d' ∧ Q (.ok p.answer) d'
  empty : ∀ {m p d d'}, J p d → p.incomplete sourceCount = false →
    RunCompletedEmpty m d d' p.run.runId p.run.ownerId → H d d' ∧ Q (.ok p.answer) d'
  owned : ∀ {p d}, J p d → d.holdsRun p.run.runId p.run.ownerId p.run.operationId
  commit : ∀ {m p manifest request manifestId d d'}, J p d →
    build C manifestId p.run.ownerId p.run.runId p.run.windowStart p.run.windowEnd
      (p.selection sourceCount).sources = .ok manifest →
    ManifestCommitted m d d' C manifest request → H d d' ∧ Q (.ok p.answer) d'

/-- how the last part of a tick that answers `k` ends. -/
def Tick.ends {α : Type} (k : Tick) (Q : Except RunExecutionError Tick → Db → Prop) :
    Except RunExecutionError α → Db → Prop
  | .ok _, d => Q (.ok k) d
  | .error x, d => Q (.error x) d

section
variable {sourceCount : Nat} {N : Db → Prop} {I : PendingRun → Db → Prop}
  {J : Proceeding → Db → Prop} {Q : Except RunExecutionError Tick → Db → Prop}
  (t : TickRule C sourceCount R H env faulty N I J Q)
include t

theorem TickRule.surrounds : Surrounds R env faulty :=
  (t.walk ⟨0, 0, 0, 0, .ru, .failed, 0⟩).surrounds

theorem failRun_safe {run : PendingRun} {failure : RunFailure} {s : Db} {e : E}
    {P : Except RunExecutionError Unit → Db → Prop} {K : Db → Prop} (hs : K s)
    (other : ∀ {d d'}, R d d' → K d → K d') (hE : ∀ x d, K d → P (.error x) d)
    (h : ∀ m d d', K d → RunFailed m d d' run.runId run.ownerId failure → H d d' ∧ P (.ok ()) d') :
    Safe (S := service) R env (always H) (failWith C run failure) (fun r d _ => P r d) s e := by
  refine (safe_mapError (S := service) _ _ _).mpr
    (safe_transaction t.surrounds fun m s' e' _ hs' => failRunTx_closes (fun x => ?_) fun d' hd' => ?_)
  · exact ⟨(t.walk run).idle s', hE _ s' (other hs' hs)⟩
  · exact h m s' d' (other hs' hs) hd'

theorem commitManifest_safe {p : Proceeding} {manifest : CanonicalManifest} {manifestId : Uuid}
    {bytes : C.Bytes} {s : Db} {e : E} (hs : J p s)
    (hb : build C manifestId p.run.ownerId p.run.runId p.run.windowStart p.run.windowEnd
      (p.selection sourceCount).sources = .ok manifest)
    (hv : C.recapRequest.toVec (recapRequest p.run manifest) = some bytes) :
    Safe (S := service) R env (always H)
      ((commitManifest C manifest bytes).mapError fun _ => RunExecutionError.unavailable)
      (fun r d _ => p.answer.ends Q r d) s e := by
  refine (safe_mapError (S := service) _ _ _).mpr ((safe_bind (S := service) _ _ _).mpr ?_)
  rw [safe_lift]
  simp only [checkedRecapRequest, C.recapRequest.roundTrip hv]
  split_ifs with hvalid hann
  · exact t.stopped hs
  · have built := build_ok hb
    have hb' : ∃ windowStart windowEnd sources, build C manifest.manifestId manifest.ownerId
        manifest.runId windowStart windowEnd sources = .ok manifest := by
      rw [built.manifestId_eq, built.ownerId_eq, built.runId_eq]
      exact ⟨_, _, _, hb⟩
    refine safe_transaction t.surrounds fun m s' e' _ hs' => ?_
    have hJ := t.recorded hs' hs
    refine commitManifestTx_closes hb' ?_ hann
      (fun x => ⟨(t.walk p.run).idle s', t.stopped hJ⟩) (fun hrep => ?_) fun d' hd' => ?_
    · rw [built.runId_eq, built.ownerId_eq]
      exact t.owned hJ
    · obtain ⟨r, hr, hrun, -⟩ := hrep
      exact ⟨(t.walk p.run).idle s', t.replayed hJ ⟨r, hr, hrun.trans built.runId_eq⟩⟩
    · exact t.commit hJ hb hd'
  · exact t.stopped hs

theorem failWith_ends {p : Proceeding} {failure : RunFailure} {s : Db} {e : E} (hs : J p s) :
    Safe (S := service) R env (always H) (failWith C p.run failure)
      (fun r d _ => p.answer.ends Q r d) s e :=
  failRun_safe t (P := p.answer.ends Q) hs t.recorded (fun _ _ => t.stopped) fun _ _ _ => t.failed

theorem commitSources_safe {p : Proceeding} {manifestId : Uuid} {s : Db} {e : E} (hs : J p s) :
    Safe (S := service) R env (always H)
      (commitSources C p.run (p.selection sourceCount).sources manifestId)
      (fun r d _ => p.answer.ends Q r d) s e := by
  unfold commitSources
  rcases hb : build C manifestId p.run.ownerId p.run.runId p.run.windowStart p.run.windowEnd
    (p.selection sourceCount).sources with x | manifest
  · exact failWith_ends t hs
  · dsimp only
    rcases hv : C.recapRequest.toVec (recapRequest p.run manifest) with _ | bytes
    · exact t.stopped hs
    · refine (safe_bind (S := service) _ _ _).mpr
        (Safe.imp (fun r s' e' h => ?_) (commitManifest_safe t hs hb hv))
      cases r with
      | ok _ => exact h
      | error x => exact h

theorem commit_safe {p : Proceeding} {s : Db} {e : E} (hs : J p s) :
    Safe (S := service) R env (always H)
      (commit C p.run (p.selection sourceCount).sources (p.incomplete sourceCount))
      (fun r d _ => p.answer.ends Q r d) s e := by
  unfold commit
  split_ifs with hempty hinc
  · exact failWith_ends t hs
  · refine (safe_mapError (S := service) _ _ _).mpr (safe_transaction t.surrounds
      fun m s' e' _ hs' => completeEmptyRunTx_closes (fun x => ?_) fun d' hd' => ?_)
    · exact ⟨(t.walk p.run).idle s', t.stopped (t.recorded hs' hs)⟩
    · exact t.empty (t.recorded hs' hs) (by simpa using hinc) hd'
  · exact fun s₁ hs₁ m e' _ => commitSources_safe t (t.recorded hs₁ hs)

theorem proceed_safe {run : PendingRun} {listed : Db} {outcomes : Outcomes} {s : Db} {e : E}
    (hlisted : I run listed) (hs : I run s)
    (hw : ∀ seen, (⟨run, listed, outcomes, seen⟩ : Proceeding).Walked) :
    Safe (S := service) R env (always H) (proceed C sourceCount run listed outcomes)
      (fun r d _ => Q r d) s e := by
  have w := t.walk run
  refine safe_read t.surrounds (fun s' hs' _ => ⟨w.idle s', fun _ => t.dropped (w.other hs' hs)⟩)
    fun _ seen e₁ _ hseen => ⟨w.idle seen, ?_⟩
  have hI := w.other hseen hs
  let p : Proceeding := ⟨run, listed, outcomes, seen⟩
  refine (safe_bind (S := service) _ _ _).mpr (safe_change t.surrounds
    (fun s' hs' _ => ⟨w.idle s', fun _ => t.dropped (w.other hs' hI)⟩) fun _ s₁ e₂ _ hs₁ => ?_)
  obtain ⟨hH, hJ⟩ := t.record (p := p) hlisted hI (hw seen) hs₁
  refine ⟨hH, (safe_bind (S := service) _ _ _).mpr
    (Safe.imp (fun r s' e' h => ?_) (commit_safe t (p := p) hJ))⟩
  cases r with
  | ok _ => exact h
  | error x => exact h

theorem acquireRun_safe {run : PendingRun} {s : Db} {e : E} (hs : I run s) :
    Safe (S := service) R env (always H) (acquireRun C sourceCount run)
      (fun r d _ => Q r d) s e := by
  have w := t.walk run
  refine safe_read t.surrounds (fun s' hs' _ => ⟨w.idle s', fun _ => t.dropped (w.other hs' hs)⟩)
    fun _ listed e₁ _ hl => ⟨w.idle listed, ?_⟩
  have hlisted := w.other hl hs
  refine (safe_bind (S := service) _ _ _).mpr
    (Safe.imp (fun r s₁ e₂ h => ?_) (acquire_keeps w _ hlisted))
  obtain ⟨hI, outcomes, rfl, houtcomes⟩ := h
  dsimp only
  rcases hacq : acquired outcomes with _ | _ | _ | _
  · exact proceed_safe t hlisted hI fun seen => ⟨houtcomes, .inl hacq⟩
  · exact proceed_safe t hlisted hI fun seen => ⟨houtcomes, .inr hacq⟩
  · exact t.deferred hI
  · refine (safe_bind (S := service) _ _ _).mpr (Safe.imp (fun r s' e' h => ?_)
      (failRun_safe t (P := (Tick.unavailable run listed outcomes).ends Q) hI w.other
        (fun _ _ => t.dropped) fun _ _ _ => t.unavailable))
    cases r with
    | ok _ => exact h
    | error x => exact h

/-- **A tick that meets its obligations is safe**, whatever the provider answers. -/
theorem tick_safe {s : Db} {e : E} (hs : N s) :
    Safe (S := service) R env (always H) (tick C sourceCount) (fun r d _ => Q r d) s e := by
  have idle : ∀ d, H d d := (t.walk ⟨0, 0, 0, 0, .ru, .failed, 0⟩).idle
  refine safe_read t.surrounds (fun s' hs' _ => ⟨idle s', fun _ => t.lost (t.before hs' hs)⟩)
    fun m s₁ e₁ _ hs₁ => ⟨idle s₁, ?_⟩
  have hN := t.before hs₁ hs
  rcases hpick : s₁.selectPending m.now with _ | run
  · exact t.idle hN
  · have hI := t.pick hN hpick
    dsimp only
    split_ifs
    · refine (safe_bind (S := service) _ _ _).mpr
        (safe_transaction t.surrounds fun m s' e' _ hs' => ?_)
      have hI' := (t.walk run).other hs' hI
      refine beginAcquisitionTx_closes (fun x => ⟨idle s', t.dropped hI'⟩)
        (fun _ => ⟨idle s', t.taken hI'⟩) fun d' hd' => ?_
      obtain ⟨hH, hI''⟩ := t.begun hI' hd'
      exact ⟨hH, acquireRun_safe t hI''⟩
    · exact acquireRun_safe t hI

end

end

end ChannelDigests
