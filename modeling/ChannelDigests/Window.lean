import ChannelDigests.Selection
import ChannelDigests.Moves
import ChannelDigests.Walks
import ChannelDigests.Documents

/-!
# The window of a run

A run is stored with its window to the microsecond.  The executor reads the window in whole
seconds, and stores posts, selects sources and commits a manifest by what it read.

* `wholeSecond_le`, `wholeSecond_iff`   what cutting to the second does to a window;
* `Run.WindowKept`      the window is the stored one wherever the executor uses it;
* `commit_carries`      a committed manifest and its request carry the window that was read;
* `window_kept_iff`     **the window is kept exactly when both its ends are whole seconds**.
-/

namespace ChannelDigests
open Lib Prog

/-! ## Whole seconds -/

theorem second_pos : 0 < second := by decide

theorem wholeSecond_le (t : Instant) : wholeSecond t ≤ t :=
  Int.sub_le_self t (Int.emod_nonneg t second_pos.ne')

/-- two windows that hold the same instants are the same. -/
theorem window_unique {a b s e : Int} (h : s < e)
    (hw : ∀ t, (a ≤ t ∧ t < b) ↔ (s ≤ t ∧ t < e)) : a = s ∧ b = e := by
  have h1 := (hw s).mpr ⟨le_rfl, h⟩
  have h2 := (hw a).mp ⟨le_rfl, by omega⟩
  have h3 := (hw (e - 1)).mpr ⟨by omega, by omega⟩
  have h4 := (hw (b - 1)).mp ⟨by omega, by omega⟩
  omega

/-! ## Where the executor uses the window -/

/-- the manifests and requests that are new in `d'` carry the window. -/
structure Db.Carries (d d' : Db) (C : Contracts) (windowStart windowEnd : Instant) : Prop where
  manifest : ∀ m ∈ d'.manifests, m ∈ d.manifests ∨ ∃ text book, m.canonicalText = some text ∧
    C.readManifest text = some book ∧ book.windowStart = windowStart ∧ book.windowEnd = windowEnd
  request : ∀ o ∈ d'.outbox, o ∈ d.outbox ∨ ∀ q, o.payload = .recapRequest q →
    q.windowStart = windowStart ∧ q.windowEnd = windowEnd

/-- the window of a stored run is one and the same everywhere: the walk counts a post, the
selection takes a revision, and the commit names a window. -/
structure Run.WindowKept (r : Run) (C : Contracts) : Prop where
  walked : ∀ {E : Type} {env : E → (q : Question) → q.Answer → E → Prop} {channel : Uuid × String}
    {post : ProviderPost} {published : Instant} {st : Stored} {d d' : Db} {e e' : E},
    post.storable = true → post.publishedAt = some published →
    Runs (S := service) Eq env (storePosts C (r.pendingRun.request channel) [post] ⟨[], 0, false⟩)
      d e (.ok st) d' e' →
    (st.count = 1 ↔ r.windowStart ≤ published ∧ published < r.windowEnd)
  selected : ∀ (d : Db), ∀ o ∈ d.revisions, d.enabled r.ownerId o.channelId = true →
    (o ∈ d.windowRevisions r.pendingRun ↔
      r.windowStart ≤ o.publishedAt ∧ o.publishedAt < r.windowEnd)
  committed : ∀ {E : Type} {env : E → (q : Question) → q.Answer → E → Prop}
    {sources : List ManifestSource} {incomplete : Bool} {answer : Except RunExecutionError Unit}
    {d d' : Db} {e e' : E}, r ∈ d.runs →
    Runs (S := service) Eq env (commit C r.pendingRun sources incomplete) d e answer d' e' →
    d.Carries d' C r.windowStart r.windowEnd

section
variable {C : Contracts} {E : Type} {env : E → (q : Question) → q.Answer → E → Prop} {d d' : Db}
  {e : E} {s t : Instant}

theorem Db.Carries.refl (d : Db) (C : Contracts) (s t : Instant) : d.Carries d C s t :=
  ⟨fun _ h => .inl h, fun _ h => .inl h⟩

/-- a change that queues at most a report carries every window. -/
theorem Db.Carries.reported {owned : Option Uuid} {report : Uuid → OperationReportRow} {id : Uuid}
    {now : Instant} (hm : d'.manifests = d.manifests)
    (ho : OfferedOwned d.outbox owned report id now d'.outbox) : d.Carries d' C s t where
  manifest m h := .inl (hm ▸ h)
  request o h := (OfferedOwned.mem ho h).imp_right fun ⟨_, _, hrow⟩ q hq => by
    rw [hrow] at hq
    cases hq

/-- a committed manifest carries the window that it was built with. -/
theorem ManifestCommitted.carries {m : Moment} {manifestId ownerId runId : Uuid}
    {sources : List ManifestSource} {manifest : CanonicalManifest} {request : RecapRequested}
    (h : ManifestCommitted m d d' C manifest request)
    (hb : build C manifestId ownerId runId s t sources = .ok manifest)
    (hs : request.windowStart = s) (ht : request.windowEnd = t) : d.Carries d' C s t where
  manifest row hrow := by
    rw [h.effect] at hrow
    rcases List.mem_append.mp hrow with hrow | hrow
    · exact .inl hrow
    · obtain rfl := List.mem_singleton.mp hrow
      obtain ⟨selected, -, htext⟩ := (build_ok hb).text
      exact .inr ⟨manifest.text, _, rfl, C.readCanonical htext, rfl, rfl⟩
  request o ho := by
    rw [h.effect] at ho
    rcases List.mem_append.mp ho with ho | ho
    · exact .inl ho
    · obtain rfl := List.mem_singleton.mp ho
      refine .inr fun q hq => ?_
      cases hq
      exact ⟨hs, ht⟩

/-- a commit alone. -/
abbrev Carrying (C : Contracts) (env : E → (q : Question) → q.Answer → E → Prop)
    (run : PendingRun) {ε α : Type} (p : Action ε α) (d : Db) (e : E) : Prop :=
  Safe (S := service) Eq env (always fun _ _ => True) p
    (fun _ d' _ => d.Carries d' C run.windowStart run.windowEnd) d e

theorem failWith_carries {run : PendingRun} {failure : RunFailure} :
    Carrying C env run (failWith C run failure) d e := by
  refine (safe_mapError (S := service) _ _ _).mpr (safe_transaction (alone env) ?_)
  rintro m s' e' - rfl
  refine failRunTx_closes (fun _ => ⟨trivial, .refl d C _ _⟩) fun d' h => ⟨trivial, ?_⟩
  obtain ⟨-, ob, hob, rfl⟩ := h
  exact .reported rfl hob

theorem commitSources_carries {run : PendingRun} {sources : List ManifestSource} {manifestId : Uuid}
    (hrun : d.holdsRun run.runId run.ownerId run.operationId) :
    Carrying C env run (commitSources C run sources manifestId) d e := by
  unfold commitSources
  rcases hb : build C manifestId run.ownerId run.runId run.windowStart run.windowEnd sources with
    x | manifest
  · exact failWith_carries
  dsimp only
  rcases hv : C.recapRequest.toVec (recapRequest run manifest) with _ | bytes
  · exact .refl d C _ _
  have built := build_ok hb
  refine (safe_bind (S := service) _ _ _).mpr ((safe_mapError (S := service) _ _ _).mpr
    ((safe_bind (S := service) _ _ _).mpr ?_))
  rw [safe_lift]
  simp only [checkedRecapRequest, C.recapRequest.roundTrip hv]
  split_ifs with hvalid hann
  · exact .refl d C _ _
  · refine safe_transaction (alone env) ?_
    rintro m s' e' - rfl
    refine commitManifestTx_closes ⟨run.windowStart, run.windowEnd, sources, ?_⟩ ?_ hann
      (fun x => ⟨trivial, .refl d C _ _⟩) (fun _ => ⟨trivial, .refl d C _ _⟩)
      fun d' h => ⟨trivial, h.carries hb rfl rfl⟩
    · rw [built.manifestId_eq, built.ownerId_eq, built.runId_eq]
      exact hb
    · rw [built.runId_eq, built.ownerId_eq]
      exact hrun
  · exact .refl d C _ _

/-- **A commit carries the window that the executor read.** -/
theorem commit_carries {run : PendingRun} {sources : List ManifestSource} {incomplete : Bool}
    (hrun : d.holdsRun run.runId run.ownerId run.operationId) :
    Carrying C env run (commit C run sources incomplete) d e := by
  unfold commit
  split_ifs
  · exact failWith_carries
  · refine (safe_mapError (S := service) _ _ _).mpr (safe_transaction (alone env) ?_)
    rintro m s' e' - rfl
    refine completeEmptyRunTx_closes (fun _ => ⟨trivial, .refl d C _ _⟩) fun d' h => ⟨trivial, ?_⟩
    obtain ⟨-, ob, hob, rfl⟩ := h
    exact .reported rfl hob
  · rintro s' rfl m e' -
    exact commitSources_carries hrun

/-- a walk counts a post exactly when it lies in the window of its request. -/
theorem storePosts_counts {request : AcquisitionRequest} {post : ProviderPost} {published : Instant}
    (hs : post.storable = true) (hp : post.publishedAt = some published) :
    Safe (S := service) Eq env (always fun _ _ => True) (storePosts C request [post] ⟨[], 0, false⟩)
      (fun r _ _ => ∀ st, r = .ok st →
        (st.count = 1 ↔ request.windowStart ≤ published ∧ published < request.windowEnd)) d e := by
  simp only [storePosts, hs, hp, Bool.not_true, Bool.false_eq_true, if_false]
  split_ifs with hbefore hafter hseen
  · rintro st ⟨⟩
    exact iff_of_false Nat.zero_ne_one fun h => hbefore.not_ge h.1
  · rintro st ⟨⟩
    exact iff_of_false Nat.zero_ne_one fun h => hafter.not_gt h.2
  · cases hseen
  · refine (safe_bind (S := service) _ _ _).mpr (safe_transaction (alone env) ?_)
    rintro m s' e' - -
    unfold Tx.closes
    simp only [Tx.wp_bind, guarded, Tx.wp_attempt]
    refine ⟨fun _ => ⟨trivial, fun st h => ?_⟩, fun _ d' _ => ⟨trivial, fun st h => ?_⟩,
      fun _ _ => ⟨trivial, fun st h => ?_⟩⟩
    · cases h
    · cases h
      exact iff_of_true rfl ⟨not_lt.mp hbefore, not_le.mp hafter⟩
    · cases h

end

/-! ## When the window is kept -/

section
variable {C : Contracts} {r : Run}

/-- a window that is kept is a window of whole seconds. -/
theorem Run.WindowKept.whole (hk : r.WindowKept C) (h : r.windowStart < r.windowEnd) :
    wholeSecond r.windowStart = r.windowStart ∧ wholeSecond r.windowEnd = r.windowEnd := by
  refine window_unique h fun t => ?_
  -- a database with one enabled channel and one revision published at `t`.
  let o : Revision := ⟨0, 0, 0, 0, none, t, t, "", none, none⟩
  let d : Db := { Db.empty with
    subscriptions := [⟨0, r.ownerId, 0, 0, true⟩]
    revisions := [o] }
  have ho : o ∈ d.revisions := List.mem_singleton.mpr rfl
  have he : d.enabled r.ownerId o.channelId = true := by simp [d, o, Db.enabled]
  refine Iff.trans ?_ (hk.selected d o ho he)
  rw [mem_windowRevisions]
  exact ⟨fun ht => ⟨ho, he, ht⟩, fun ht => ht.2.2⟩

/-- a window of whole seconds is kept. -/
theorem windowKept_of_whole (hs : wholeSecond r.windowStart = r.windowStart)
    (he : wholeSecond r.windowEnd = r.windowEnd) : r.WindowKept C := by
  have hs' : r.pendingRun.windowStart = r.windowStart := hs
  have he' : r.pendingRun.windowEnd = r.windowEnd := he
  refine ⟨fun {E env channel post published st d d' e e'} hpost hp hx => ?_,
    fun d o ho hen => ?_, fun {E env sources incomplete answer d d' e e'} hr hx => ?_⟩
  · obtain ⟨t, -, hq⟩ := (storePosts_counts hpost hp).runs (fun _ => rfl) Eq.trans hx
    rw [hq st rfl, ← hs', ← he']
    rfl
  · rw [mem_windowRevisions, hs', he']
    exact ⟨fun h => h.2.2, fun h => ⟨ho, hen, h⟩⟩
  · obtain ⟨t, rfl, hq⟩ := (commit_carries ⟨r, hr, rfl, rfl, rfl⟩).runs (fun _ => rfl) Eq.trans hx
    rwa [hs', he'] at hq

end

/-- **The window is one and the same everywhere exactly when both its ends are whole seconds.** -/
theorem window_kept_iff (C : Contracts) (r : Run) (h : r.windowStart < r.windowEnd) :
    r.WindowKept C ↔
      wholeSecond r.windowStart = r.windowStart ∧ wholeSecond r.windowEnd = r.windowEnd :=
  ⟨fun hk => hk.whole h, fun hw => windowKept_of_whole hw.1 hw.2⟩

/-- a run over half a second less than a thousand seconds. -/
def Sample.halfSecond : Run :=
  { Sample.request.run 0 with windowStart := 500000 }

theorem halfSecond_not_kept : ¬ Sample.halfSecond.WindowKept Sample.contracts := by
  intro h
  have hs := (h.whole (by decide)).1
  revert hs
  decide

theorem request_window_kept : (Sample.request.run 0).windowStart < (Sample.request.run 0).windowEnd ∧
    ((Sample.request.run 0).WindowKept Sample.contracts ↔
      wholeSecond (Sample.request.run 0).windowStart = (Sample.request.run 0).windowStart ∧
      wholeSecond (Sample.request.run 0).windowEnd = (Sample.request.run 0).windowEnd) :=
  ⟨by decide, window_kept_iff _ _ (by decide)⟩

end ChannelDigests
