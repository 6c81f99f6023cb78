import ChannelDigests.Change

/-!
# What changes do to runs

Every transaction rewrites the rows of `digest_runs` one by one, along the arrows of the state
machine of its kind, and appends new accepted runs or none.

* `Kind.moves`        the arrows of the state machine;
* `RunMoves`          one row before and after a change;
* `Change.runs`       **the runs after a change**;
* `Change.runIds`, `Change.run_kept`, `Change.run_origin`   what follows for single rows.
-/

namespace ChannelDigests
open Lib

/-- the arrows that a transaction may move a run along; every other run keeps its state. -/
def Kind.moves : Kind → RunState → RunState → Bool
  | .acquiring, .accepted, .acquiring => true
  | .empty, a, .completed => a.pending
  | .failed, a, .failed => a.pending
  | .manifest, a, .waitingRecap => a.pending
  | .completion, .waitingRecap, .completed => true
  | .completion, .waitingRecap, .partially => true
  | .recapFailure, .waitingRecap, .failed => true
  | .reaped, a, .failed => a.open
  | _, _, _ => false

/-- the columns of a run that no transaction writes. -/
def Run.fixed (r : Run) :
    Uuid × Uuid × Uuid × Trigger × String × Instant × Instant × Instant :=
  (r.runId, r.ownerId, r.operationId, r.trigger, r.idempotencyKey, r.windowStart, r.windowEnd,
    r.createdAt)

/-- the run `r` may be `r'` after a transaction of the kind `k`. -/
structure RunMoves (k : Kind) (r r' : Run) : Prop where
  fixed : r'.fixed = r.fixed
  state : r'.state = r.state ∨ k.moves r.state r'.state = true
  flag : k ≠ .recorded → r'.acquisitionIncomplete = r.acquisitionIncomplete
  failureClass : r'.state = r.state → r'.safeFailureClass = r.safeFailureClass
  clock : r'.state = r.state → r'.updatedAt = r.updatedAt

/-- no arrow is a loop. -/
theorem Kind.moves_ne {k : Kind} {a b : RunState} (h : k.moves a b = true) : b ≠ a := by
  revert h
  cases k <;> cases a <;> cases b <;> decide

namespace RunMoves
variable {k : Kind} {r r' : Run}

theorem refl (r : Run) : RunMoves k r r :=
  ⟨rfl, .inl rfl, fun _ => rfl, fun _ => rfl, fun _ => rfl⟩

/-- a row that moves along an arrow. -/
theorem arrow (hf : r'.fixed = r.fixed) (hm : k.moves r.state r'.state = true)
    (hi : r'.acquisitionIncomplete = r.acquisitionIncomplete) : RunMoves k r r' :=
  ⟨hf, .inr hm, fun _ => hi, fun h => absurd h (Kind.moves_ne hm),
    fun h => absurd h (Kind.moves_ne hm)⟩

theorem runId (h : RunMoves k r r') : r'.runId = r.runId := congrArg (·.1) h.fixed
theorem ownerId (h : RunMoves k r r') : r'.ownerId = r.ownerId := congrArg (·.2.1) h.fixed
theorem operationId (h : RunMoves k r r') : r'.operationId = r.operationId :=
  congrArg (·.2.2.1) h.fixed
theorem trigger (h : RunMoves k r r') : r'.trigger = r.trigger := congrArg (·.2.2.2.1) h.fixed

/-- an ended run stays as it ended. -/
theorem terminal (h : RunMoves k r r') (ht : r.state.terminal = true) : r'.state = r.state := by
  refine h.state.resolve_right fun hm => ?_
  revert hm ht
  cases k <;> cases r.state <;> cases r'.state <;> decide

/-- nothing returns to the pending states. -/
theorem pending (h : RunMoves k r r') (ht : r'.state.pending = true) :
    r.state.pending = true := by
  rcases h.state with hs | hm
  · rwa [hs] at ht
  · revert hm ht
    cases k <;> cases r.state <;> cases r'.state <;> decide

/-- only a manifest makes a run wait. -/
theorem waiting (h : RunMoves k r r') (ht : r'.state = .waitingRecap) (hk : k ≠ .manifest) :
    r.state = .waitingRecap := by
  rcases h.state with hs | hm
  · rwa [hs] at ht
  · revert hm ht hk
    cases k <;> cases r.state <;> cases r'.state <;> decide

/-- a pending run stays pending or fails, unless it is completed without a recap or its manifest
is committed. -/
theorem pending_or_failed (h : RunMoves k r r') (he : k ≠ .empty) (hk : k ≠ .manifest)
    (ht : r.state.pending = true ∨ r.state = .failed) :
    r'.state.pending = true ∨ r'.state = .failed := by
  rcases h.state with hs | hm
  · rwa [hs]
  · revert hm ht he hk
    cases k <;> cases r.state <;> cases r'.state <;> decide

end RunMoves

/-- `new` may be appended to `runs`: accepted runs under identities of their own. -/
structure NewRuns (runs new : List Run) : Prop where
  accepted : ∀ r ∈ new, r.state = .accepted ∧ r.acquisitionIncomplete = false
  fresh : KeyUnique Run.runId runs → KeyUnique Run.runId (runs ++ new)

theorem NewRuns.nil (runs : List Run) : NewRuns runs [] :=
  ⟨fun _ h => by simp at h, fun h => by simpa using h⟩

theorem NewRuns.single {runs : List Run} {r : Run}
    (hr : r.state = .accepted ∧ r.acquisitionIncomplete = false)
    (hid : ∀ o ∈ runs, o.runId ≠ r.runId) : NewRuns runs [r] :=
  ⟨fun o ho => by rwa [List.mem_singleton.mp ho], fun h => h.snoc hid⟩

theorem NewRuns.append {runs a b : List Run} (ha : NewRuns runs a) (hb : NewRuns (runs ++ a) b) :
    NewRuns runs (a ++ b) where
  accepted r hr := (List.mem_append.mp hr).elim (ha.accepted r) (hb.accepted r)
  fresh h := by
    rw [← List.append_assoc]
    exact hb.fresh (ha.fresh h)

/-- the runs that a fan-out appends. -/
theorem fannedOut_new {m : Moment} {o : OccurrenceRequest} {subs : List Subscription}
    {owners : List Uuid} {n : Nat} {runs runs' : List Run}
    (h : FannedOut m o subs owners n runs runs') :
    ∃ new, runs' = runs ++ new ∧ NewRuns runs new ∧
      ∀ r ∈ new, r.trigger = .scheduled ∧ r.operationId = o.operationId ∧
        r.safeFailureClass = none := by
  induction owners generalizing n runs with
  | nil => exact ⟨[], by rw [List.append_nil]; exact h, .nil runs, by simp⟩
  | cons ownerId owners ih =>
    obtain ⟨-, mid, hmid, hrest⟩ := h
    obtain ⟨new, rfl, hnew, hs⟩ := ih hrest
    rcases hmid with ⟨rfl, -⟩ | ⟨rfl, -, hid⟩
    · exact ⟨new, rfl, hnew, hs⟩
    · refine ⟨_ :: new, by simp, .append (.single ⟨rfl, rfl⟩ hid) hnew, fun r hr => ?_⟩
      rcases List.mem_cons.mp hr with rfl | hr
      · exact ⟨rfl, rfl, rfl⟩
      · exact hs r hr

/-- the runs `runs` may be `runs'` after a transaction of the kind `k`. -/
def RunsAfter (k : Kind) (runs runs' : List Run) : Prop :=
  ∃ (u : Run → Run) (new : List Run), runs' = runs.map u ++ new ∧
    (∀ r ∈ runs, RunMoves k r (u r)) ∧ NewRuns runs new ∧
    (new ≠ [] → k = .run ∨ k = .occurrence)

namespace RunsAfter
variable {k : Kind} {runs runs' : List Run}

theorem same (h : runs' = runs) : RunsAfter k runs runs' :=
  ⟨id, [], by simpa using h, fun r _ => .refl r, .nil _, by simp⟩

theorem added {new : List Run} (h : runs' = runs ++ new) (hn : NewRuns runs new)
    (hk : k = .run ∨ k = .occurrence) : RunsAfter k runs runs' :=
  ⟨id, new, by simpa using h, fun r _ => .refl r, hn, fun _ => hk⟩

theorem update {p : Run → Bool} {u : Run → Run} (h : runs' = updateWhere p u runs)
    (hu : ∀ r ∈ runs, p r = true → RunMoves k r (u r)) : RunsAfter k runs runs' := by
  refine ⟨fun r => if p r then u r else r, [], by simpa [updateWhere] using h, fun r hr => ?_,
    .nil _, by simp⟩
  dsimp only
  split_ifs with hp
  · exact hu r hr hp
  · exact .refl r

/-- one run that is open for `p` moves on. -/
theorem settled {runId ownerId : Uuid} {p : RunState → Bool} {u : Run → Run}
    (h : runs' = updateWhere (Run.isOpen runId ownerId p) u runs)
    (hu : ∀ r, (u r).fixed = r.fixed ∧ (u r).acquisitionIncomplete = r.acquisitionIncomplete)
    (hm : ∀ r, p r.state = true → k.moves r.state (u r).state = true) : RunsAfter k runs runs' := by
  refine update h fun r _ hp => .arrow (hu r).1 (hm r ?_) (hu r).2
  simp only [Run.isOpen, Bool.and_eq_true] at hp
  exact hp.2

end RunsAfter

/-- a reaped run was open. -/
theorem reaped_open {d : Db} {cutoff : Instant} {r : Run} (hu : KeyUnique Run.runId d.runs)
    (hr : r ∈ d.runs) (h : d.reaped cutoff r = true) : r.state.open = true := by
  unfold Db.reaped at h
  rw [List.contains_iff_mem] at h
  obtain ⟨o, ho, hid⟩ := List.mem_map.mp h
  have ho := (List.perm_insertionSort _ _).mem_iff.mp (List.mem_of_mem_take ho)
  rw [List.mem_filter, Bool.and_eq_true] at ho
  rw [← hu.eq ho.1 hr hid]
  exact ho.2.1

section
variable {C : Contracts} {K : Message → Prop} {w : Crew} {k : Kind} {d d' : Db}

/-- **The runs after a change**: the old rows, each moved along an arrow or left alone, and the
new ones. -/
theorem Change.runs (h : Change C K w k d d') (hu : KeyUnique Run.runId d.runs) :
    RunsAfter k d.runs d'.runs := by
  have hf : Table.runs ∉ k.writes → RunsAfter k d.runs d'.runs := fun ht => .same (h.frame .runs ht)
  cases h with
  | created _ h =>
    obtain ⟨-, -, -, hid, ob, -, rfl⟩ := h
    exact .added rfl (.single ⟨rfl, rfl⟩ hid) (.inl rfl)
  | repeated _ h =>
    obtain ⟨-, -, ob, -, rfl⟩ := h
    exact .update rfl fun r _ _ => ⟨rfl, .inl rfl, fun _ => rfl, fun _ => rfl, fun _ => rfl⟩
  | occurrence _ h =>
    obtain ⟨-, runs, ob, hruns, -, rfl⟩ := h
    obtain ⟨new, rfl, hnew, -⟩ := fannedOut_new hruns
    exact .added rfl hnew (.inr rfl)
  | acquiring h =>
    obtain ⟨-, ob, -, rfl⟩ := h
    refine .update rfl fun r _ hp => .arrow rfl ?_ rfl
    simp only [Run.isAccepted, Bool.and_eq_true, decide_eq_true_eq] at hp
    rw [hp.2]
    rfl
  | recorded _ _ =>
    exact .update rfl fun r _ _ =>
      ⟨rfl, .inl rfl, fun h => absurd rfl h, fun _ => rfl, fun _ => rfl⟩
  | empty h =>
    obtain ⟨-, ob, -, rfl⟩ := h
    exact .settled rfl (fun _ => ⟨rfl, rfl⟩) fun _ h => h
  | failed h =>
    obtain ⟨-, ob, -, rfl⟩ := h
    exact .settled rfl (fun _ => ⟨rfl, rfl⟩) fun _ h => h
  | manifest h _ =>
    rw [h.effect]
    exact .settled rfl (fun _ => ⟨rfl, rfl⟩) fun _ h => h
  | completion _ _ h _ =>
    obtain ⟨-, -, -, -, -, -, ob, -, rfl⟩ := h
    refine .settled rfl (fun _ => ⟨rfl, rfl⟩) fun r h => ?_
    rw [of_decide_eq_true h]
    show Kind.completion.moves .waitingRecap (completionOutcome _ _).state = true
    unfold completionOutcome
    split_ifs <;> rfl
  | recapFailure _ h =>
    obtain ⟨-, -, -, -, ob, -, rfl⟩ := h
    refine .settled rfl (fun _ => ⟨rfl, rfl⟩) fun r h => ?_
    rw [of_decide_eq_true h]
    rfl
  | reaped h =>
    obtain ⟨ob, -, rfl⟩ := h
    exact .update rfl fun r hr hp => .arrow rfl (reaped_open hu hr hp) rfl
  | _ => exact hf (by decide)

/-- the identities of the runs stay unique. -/
theorem Change.runIds (h : Change C K w k d d') (hu : KeyUnique Run.runId d.runs) :
    KeyUnique Run.runId d'.runs := by
  obtain ⟨u, new, hd', hmove, hnew, -⟩ := h.runs hu
  have hmap : (d.runs.map u).map Run.runId = d.runs.map Run.runId := by
    rw [List.map_map]
    exact List.map_congr_left fun r hr => (hmove r hr).runId
  have := hnew.fresh hu
  unfold KeyUnique at this ⊢
  rwa [hd', List.map_append, hmap, ← List.map_append]

/-- a stored run is still stored after a change. -/
theorem Change.run_kept (h : Change C K w k d d') (hu : KeyUnique Run.runId d.runs) {r : Run}
    (hr : r ∈ d.runs) : ∃ r' ∈ d'.runs, RunMoves k r r' := by
  obtain ⟨u, new, hd', hmove, -⟩ := h.runs hu
  exact ⟨u r, by rw [hd']; exact List.mem_append_left _ (List.mem_map_of_mem hr), hmove r hr⟩

/-- a run is stored already, or it is new and accepted. -/
theorem Change.run_origin (h : Change C K w k d d') (hu : KeyUnique Run.runId d.runs) {r' : Run}
    (hr : r' ∈ d'.runs) :
    (∃ r ∈ d.runs, RunMoves k r r') ∨
      ((∀ r ∈ d.runs, r.runId ≠ r'.runId) ∧ r'.state = .accepted ∧
        r'.acquisitionIncomplete = false ∧ (k = .run ∨ k = .occurrence)) := by
  obtain ⟨u, new, hd', hmove, hnew, hk⟩ := h.runs hu
  rw [hd'] at hr
  rcases List.mem_append.mp hr with hr | hr
  · obtain ⟨r, hold, rfl⟩ := List.mem_map.mp hr
    exact .inl ⟨r, hold, hmove r hold⟩
  · refine .inr ⟨fun r hmem hid => ?_, (hnew.accepted r' hr).1, (hnew.accepted r' hr).2,
      hk (List.ne_nil_of_mem hr)⟩
    have := List.nodup_append.mp (List.map_append ▸ hnew.fresh hu :
      (d.runs.map Run.runId ++ new.map Run.runId).Nodup)
    exact this.2.2 _ (List.mem_map_of_mem hmem) _ (List.mem_map_of_mem hr) hid

end

/-! ## Any number of changes -/

section
variable {C : Contracts} {K : Message → Prop} {w : Crew} {p : Kind → Prop} {d d' : Db}

/-- an invariant of the changes of some kinds holds after any number of them. -/
theorem Evolves.keeps {I : Db → Prop} (h : Evolves C K w p d d')
    (step : ∀ {k d d'}, p k → Change C K w k d d' → I d → I d') (hd : I d) : I d' := by
  induction h with
  | refl => exact hd
  | tail _ hk ih =>
    obtain ⟨k, hp, hc⟩ := hk
    exact step hp hc ih

theorem Evolves.runIds (h : Evolves C K w p d d') (hu : KeyUnique Run.runId d.runs) :
    KeyUnique Run.runId d'.runs :=
  h.keeps (I := fun d => KeyUnique Run.runId d.runs) (fun _ hc => hc.runIds) hu

theorem Evolves.mono {q : Kind → Prop} (h : Evolves C K w p d d') (hpq : ∀ k, p k → q k) :
    Evolves C K w q d d' := by
  induction h with
  | refl => exact .refl
  | tail _ hk ih =>
    obtain ⟨k, hp, hc⟩ := hk
    exact ih.tail ⟨k, hpq k hp, hc⟩

/-- a run that is stored stays stored, with its owner and operation. -/
theorem Change.holdsRun {k : Kind} (h : Change C K w k d d') (hu : KeyUnique Run.runId d.runs)
    {runId ownerId operationId : Uuid} (hr : d.holdsRun runId ownerId operationId) :
    d'.holdsRun runId ownerId operationId := by
  obtain ⟨r, hr, rfl, rfl, rfl⟩ := hr
  obtain ⟨r', hr', hm⟩ := h.run_kept hu hr
  exact ⟨r', hr', hm.runId, hm.ownerId, hm.operationId⟩

end

end ChannelDigests
