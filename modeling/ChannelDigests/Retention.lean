import ChannelDigests.Erasure

/-!
# How long a run needs its posts

A run that is accepted or acquiring reads posts from its window, and retention nulls the bodies of
old posts.  Time is explicit here: each step has an instant, and the reaper ticks at least every
thirty seconds.

* `Limits`             the settings of retention and of the deadline;
* `Happens`, `Lifetime`   a course of time since a run was accepted;
* `Event.Manageable`   a reaper tick finds no more overdue runs than it can fail;
* `Event.Spares`       a sweep leaves the posts in the window of the run while it is pending;
* `Unreaped`           the invariant: a pending run was not overdue at the last reaper tick;
* `windows_spared_iff`  **retention spares the window of every run accepted at an instant exactly
                       when two deadlines and two reaper periods after it are within retention**.
-/

namespace ChannelDigests
open Lib Prog

/-! ## Settings and time -/

/-- the settings of retention and of the deadline, in the ranges that the configuration admits. -/
structure Limits where
  bodyDays : Nat
  deadlineSeconds : Nat
  bodyDays_range : 8 ≤ bodyDays ∧ bodyDays ≤ 3650
  deadline_range : 60 ≤ deadlineSeconds ∧ deadlineSeconds ≤ 86400

/-- the age at which a body is nulled. -/
def Limits.retention (L : Limits) : Int := 24 * L.bodyDays * 3600 * second

/-- how long a run may stay in one state. -/
def Limits.deadline (L : Limits) : Int := L.deadlineSeconds * second

/-- the longest time between two reaper ticks. -/
def reaperPeriod : Int := 30 * second

/-- the answers of one instant. -/
def atInstant (now : Instant) : Unit → (q : Question) → q.Answer → Unit → Prop
  | _, .moment, m, _ => m.now = now
  | _, _, _, _ => True

section
variable (C : Contracts) (K : Message → Prop) (w : Crew) (L : Limits)

/-- what the worker does at an instant beside reaping runs and sweeping bodies: an executor takes a
run on, or something else changes. -/
inductive Happens (now : Instant) : Db → Db → Prop where
  | begins {d d' run r} :
      Runs (S := service) Eq (atInstant now) (beginAcquisition C run) d () r d' () → Happens now d d'
  | works {d d' k} : k ≠ .acquiring → k ≠ .reaped → k ≠ .bodies → Change C K w k d d' →
      Happens now d d'

/-- a reaper tick or the body statement of a sweep. -/
inductive Event where
  | reap (before : Db) (now : Instant)
  | sweep (before after : Db)

/-- a course of time since the run was accepted, with its reaper ticks and sweeps, the database, the
clock and the last reaper tick.  A sweep takes its cutoff when it begins and its body statement may
be later; its manifest statement is other work. -/
inductive Lifetime (R : Run) : List Event → Db → Instant → Instant → Prop where
  | accepted {d tick} : KeyUnique Run.runId d.runs → KeyUnique Revision.revisionId d.revisions →
      R ∈ d.runs → R.state = .accepted → R.updatedAt = R.createdAt → tick ≤ R.createdAt →
      R.createdAt ≤ tick + reaperPeriod → Lifetime R [] d R.createdAt tick
  | happens {log d now tick now' d'} : Lifetime R log d now tick → now ≤ now' →
      now' ≤ tick + reaperPeriod → Happens C K w now' d d' → Lifetime R log d' now' tick
  | reaps {log d now tick now' d' n} : Lifetime R log d now tick → now ≤ now' →
      now' ≤ tick + reaperPeriod →
      Runs (S := service) Eq (atInstant now') (reapOnce C L.deadline now') d () (.ok n) d' () →
      Lifetime R (log ++ [.reap d now']) d' now' now'
  | sweeps {log d now tick now' d' begun r} : Lifetime R log d now tick → now ≤ now' →
      now' ≤ tick + reaperPeriod → begun ≤ now' →
      Runs (S := service) Eq (atInstant now') (minimizeBefore (begun - L.retention) sweepBatch) d ()
        r d' () → Lifetime R (log ++ [.sweep d d']) d' now' tick

end

/-- a reaper tick finds no more overdue runs than it can fail. -/
def Event.Manageable (L : Limits) : Event → Prop
  | .reap d now =>
    (d.runs.filter fun r => r.state.open && decide (r.updatedAt < now - L.deadline)).length ≤
      reaperBatch
  | .sweep _ _ => True

/-- a sweep leaves the posts in the window of the run while it is pending. -/
def Event.Spares (R : Run) : Event → Prop
  | .reap _ _ => True
  | .sweep d d' => (∃ r ∈ d.runs, r.runId = R.runId ∧ r.state.pending = true) →
    ∀ o ∈ d.revisions, R.windowStart ≤ o.publishedAt → o.publishedAt < R.windowEnd →
      o ∈ d'.revisions

/-! ## A pending run was not overdue -/

/-- the run was not overdue at the last reaper tick if it is pending. -/
structure Unreaped (L : Limits) (R : Run) (d : Db) (now tick : Instant) : Prop where
  runIds : KeyUnique Run.runId d.runs
  revisionIds : KeyUnique Revision.revisionId d.revisions
  present : ∃ r ∈ d.runs, r.runId = R.runId
  since : tick ≤ now
  period : now ≤ tick + reaperPeriod
  pending : ∀ r ∈ d.runs, r.runId = R.runId → r.state.pending = true →
    tick ≤ r.updatedAt + L.deadline ∧ (r.state = .accepted → r.updatedAt = R.createdAt) ∧
      r.updatedAt ≤ R.createdAt + L.deadline + reaperPeriod

section
variable {C : Contracts} {K : Message → Prop} {w : Crew} {L : Limits} {R : Run} {d d' : Db}
  {now now' tick : Instant}

/-- what one step leaves of the run: a pending row of it was there and is pending as before. -/
theorem Unreaped.change {k : Kind} (h : Unreaped L R d now tick) (hc : Change C K w k d d')
    (hle : now ≤ now') (hp : now' ≤ tick + reaperPeriod)
    (hmove : ∀ r ∈ d.runs, ∀ r' ∈ d'.runs, r.runId = R.runId → RunMoves k r r' →
      r'.state.pending = true → tick ≤ r'.updatedAt + L.deadline ∧
        (r'.state = .accepted → r'.updatedAt = R.createdAt) ∧
        r'.updatedAt ≤ R.createdAt + L.deadline + reaperPeriod) :
    Unreaped L R d' now' tick := by
  obtain ⟨r₀, hr₀, hid₀⟩ := h.present
  obtain ⟨r₁, hr₁, hmove₁⟩ := hc.run_kept h.runIds hr₀
  refine ⟨hc.runIds h.runIds, hc.revisionIds h.revisionIds, ⟨r₁, hr₁, ?_⟩, h.since.trans hle, hp,
    fun r' hr' hid hpending => ?_⟩
  · rw [hmove₁.runId, hid₀]
  · rcases hc.run_origin h.runIds hr' with ⟨r, hr, hm⟩ | ⟨hnew, -⟩
    · exact hmove r hr r' hr' (hm.runId ▸ hid) hm hpending
    · exact absurd (hid₀.trans hid.symm) (hnew r₀ hr₀)

/-- a run is taken on, or nothing happens. -/
theorem begin_runs {run : PendingRun} {r : Except RunExecutionError Bool}
    (h : Runs (S := service) Eq (atInstant now) (beginAcquisition C run) d () r d' ()) :
    d' = d ∨ ∃ m, m.now = now ∧ AcquisitionBegun m d d' run.runId run.ownerId := by
  have hsafe : Safe (S := service) Eq (atInstant now) (always fun _ _ => True)
      (beginAcquisition C run)
      (fun _ d' _ => d' = d ∨ ∃ m, m.now = now ∧ AcquisitionBegun m d d' run.runId run.ownerId)
      d () := by
    refine safe_transaction (alone _) ?_
    intro m d₁ e hm hd
    subst hd
    exact beginAcquisitionTx_closes (fun _ => ⟨trivial, .inl rfl⟩) (fun _ => ⟨trivial, .inl rfl⟩)
      fun d' hbegun => ⟨trivial, .inr ⟨m, hm, hbegun⟩⟩
  obtain ⟨_, rfl, hq⟩ := hsafe.runs (fun _ => rfl) Eq.trans h
  exact hq

/-- a reaper tick that succeeds fails the overdue runs of its batch. -/
theorem reap_runs {deadline : Int} {n : Nat}
    (h : Runs (S := service) Eq (atInstant now) (reapOnce C deadline now) d () (.ok n) d' ()) :
    ∃ m, RunsReaped m d d' (now - deadline) := by
  have hsafe : Safe (S := service) Eq (atInstant now) (always fun _ _ => True)
      (reapOnce C deadline now)
      (fun r d' _ => ∀ n, r = .ok n → ∃ m, RunsReaped m d d' (now - deadline)) d () := by
    refine safe_transaction (alone _) ?_
    intro m d₁ e _ hd
    subst hd
    refine reapTx_closes (fun _ => ⟨trivial, fun n hn => ?_⟩)
      fun n d' hreaped => ⟨trivial, fun _ _ => ⟨m, hreaped⟩⟩
    cases hn
  obtain ⟨_, rfl, hq⟩ := hsafe.runs (fun _ => rfl) Eq.trans h
  exact hq n rfl

/-- the body statement of a sweep nulls the bodies of its batch, or it is lost. -/
theorem sweep_runs {before : Instant} {limit : Nat} {r : Except MaintenanceError Nat}
    (h : Runs (S := service) Eq (atInstant now) (minimizeBefore before limit) d () r d' ()) :
    d' = d ∨ ∃ t, d' = d.minimizeRevisions before limit t := by
  have hsafe : Safe (S := service) Eq (atInstant now) (always fun _ _ => True)
      (minimizeBefore before limit)
      (fun _ d' _ => d' = d ∨ ∃ t, d' = d.minimizeRevisions before limit t) d () := by
    refine safe_change (alone _) (fun d₁ hd _ => ⟨trivial, fun _ => .inl hd.symm⟩) ?_
    intro m d₁ e _ hd
    subst hd
    exact ⟨trivial, .inr ⟨m.now, rfl⟩⟩
  obtain ⟨_, rfl, hq⟩ := hsafe.runs (fun _ => rfl) Eq.trans h
  exact hq

theorem Unreaped.later (h : Unreaped L R d now tick) (hle : now ≤ now')
    (hp : now' ≤ tick + reaperPeriod) : Unreaped L R d now' tick :=
  ⟨h.runIds, h.revisionIds, h.present, h.since.trans hle, hp, h.pending⟩

theorem begun_clock {tick created deadline period updated now : Int} (hd : 0 ≤ deadline)
    (hsince : tick ≤ now) (hperiod : now ≤ tick + period) (htick : tick ≤ updated + deadline)
    (hcreated : updated = created) : tick ≤ now + deadline ∧ now ≤ created + deadline + period := by
  omega

theorem overdue {updated deadline now : Int} (h : ¬ now ≤ updated + deadline) :
    updated < now - deadline := by
  omega

theorem Limits.deadline_nonneg (L : Limits) : 0 ≤ L.deadline := by
  unfold Limits.deadline second
  omega

theorem Unreaped.happens (h : Unreaped L R d now tick) (hle : now ≤ now')
    (hp : now' ≤ tick + reaperPeriod) (hx : Happens C K w now' d d') :
    Unreaped L R d' now' tick := by
  cases hx with
  | begins hx =>
    rcases begin_runs hx with rfl | ⟨m, hm, hbegun⟩
    · exact h.later hle hp
    · refine h.change (K := K) (C := C) (w := w) (.acquiring hbegun) hle hp ?_
      intro r hr r' hr' hid hmove hpending
      obtain ⟨-, ob, -, rfl⟩ := hbegun
      have hr₀ := h.pending r hr hid (hmove.pending hpending)
      obtain ⟨o, ho, ⟨haccepted, rfl⟩ | ⟨-, rfl⟩⟩ := mem_updateWhere.mp hr'
      · -- the run is taken on at this instant
        obtain rfl : o = r := h.runIds.eq ho hr (hmove.runId : o.runId = r.runId)
        have hstate : o.state = .accepted := by
          unfold Run.isAccepted at haccepted
          rw [Bool.and_eq_true] at haccepted
          exact of_decide_eq_true haccepted.2
        have hclock := begun_clock L.deadline_nonneg (h.since.trans hle) hp hr₀.1 (hr₀.2.1 hstate)
        have hnow : (o.enter .acquiring m.now).updatedAt = now' := hm
        rw [hnow]
        exact ⟨hclock.1, fun hno => (by cases hno), hclock.2⟩
      · have hrow : r' = r := h.runIds.eq ho hr hmove.runId
        rw [hrow]
        exact hr₀
  | works hacquiring hreaped _ hc =>
    refine h.change hc hle hp ?_
    intro r hr r' hr' hid hmove hpending
    have hr₀ := h.pending r hr hid (hmove.pending hpending)
    have hstate : r'.state = r.state := by
      refine hmove.state.resolve_right fun hm => ?_
      revert hm hpending hacquiring hreaped
      rename_i k _
      cases k <;> cases r.state <;> cases r'.state <;> decide
    rw [hmove.clock hstate, hstate]
    exact hr₀

/-- **After a manageable reaper tick a pending run is not overdue.** -/
theorem Unreaped.reaps (C : Contracts) (h : Unreaped L R d now tick) (hle : now ≤ now')
    (hp : now' ≤ tick + reaperPeriod) (hm : (Event.reap d now').Manageable L)
    (hx : ∃ m, RunsReaped m d d' (now' - L.deadline)) : Unreaped L R d' now' now' := by
  obtain ⟨m, hreaped⟩ := hx
  have hkept : Unreaped L R d' now' tick := by
    refine h.change (K := fun _ => True) (C := C) (w := .many) (.reaped hreaped) hle hp ?_
    intro r hr r' hr' hid hmove hpending
    have hr₀ := h.pending r hr hid (hmove.pending hpending)
    have hstate : r'.state = r.state := by
      refine hmove.state.resolve_right fun hm => ?_
      revert hm hpending
      cases r.state <;> cases r'.state <;> decide
    rw [hmove.clock hstate, hstate]
    exact hr₀
  refine ⟨hkept.runIds, hkept.revisionIds, hkept.present, le_rfl, ?_, fun r' hr' hid hpending => ?_⟩
  · exact Int.le_add_of_nonneg_right (by decide)
  · refine ⟨?_, (hkept.pending r' hr' hid hpending).2⟩
    obtain ⟨ob, -, rfl⟩ := hreaped
    obtain ⟨o, ho, ⟨-, rfl⟩ | ⟨hnot, rfl⟩⟩ := mem_updateWhere.mp hr'
    · cases hpending
    · by_contra hlt
      have hover : r'.state.open = true ∧ r'.updatedAt < now' - L.deadline := by
        refine ⟨?_, overdue hlt⟩
        revert hpending
        cases r'.state <;> decide
      have hmem : r' ∈ d.overdueRuns (now' - L.deadline) := by
        unfold Db.overdueRuns
        rw [List.take_of_length_le]
        · rw [List.mem_insertionSort, List.mem_filter, Bool.and_eq_true]
          exact ⟨ho, hover.1, decide_eq_true hover.2⟩
        · rw [List.length_insertionSort]
          exact hm
      have : d.reaped (now' - L.deadline) r' = true := by
        unfold Db.reaped
        rw [List.contains_iff_mem]
        exact List.mem_map_of_mem hmem
      rw [this] at hnot
      cases hnot

/-- the body statement of a sweep leaves the runs alone. -/
theorem Unreaped.sweeps (C : Contracts) {before : Instant} {limit : Nat} (h : Unreaped L R d now tick)
    (hle : now ≤ now') (hp : now' ≤ tick + reaperPeriod)
    (hx : d' = d ∨ ∃ t, d' = d.minimizeRevisions before limit t) : Unreaped L R d' now' tick := by
  rcases hx with rfl | ⟨t, rfl⟩
  · exact h.later hle hp
  · refine h.change (K := fun _ => True) (C := C) (w := .many) .bodies hle hp ?_
    intro r hr r' hr' hid hmove hpending
    have hr₀ := h.pending r hr hid (hmove.pending hpending)
    have : r' = r := h.runIds.eq hr' hr hmove.runId
    rw [this]
    exact hr₀

/-- **The run was not overdue at the last reaper tick**, in every course of time whose ticks are
manageable. -/
theorem Lifetime.unreaped {log : List Event} (h : Lifetime C K w L R log d now tick)
    (hm : ∀ e ∈ log, e.Manageable L) : Unreaped L R d now tick := by
  induction h with
  | @accepted d tick hruns hrevisions hr hstate hupdated htick hperiod =>
    refine ⟨hruns, hrevisions, ⟨R, hr, rfl⟩, htick, hperiod, fun r hr' hid hpending => ?_⟩
    obtain rfl : r = R := hruns.eq hr' hr hid
    rw [hupdated]
    refine ⟨htick.trans (Int.le_add_of_nonneg_right L.deadline_nonneg), fun _ => rfl, ?_⟩
    rw [Int.add_assoc]
    exact Int.le_add_of_nonneg_right (Int.add_nonneg L.deadline_nonneg (by decide))
  | happens _ hle hp hx ih => exact (ih hm).happens hle hp hx
  | reaps _ hle hp hx ih =>
    refine Unreaped.reaps C (ih fun e he => hm e (List.mem_append_left _ he)) hle hp ?_ (reap_runs hx)
    exact hm _ (List.mem_append_right _ (List.mem_singleton.mpr rfl))
  | sweeps _ hle hp _ hx ih =>
    exact Unreaped.sweeps C (ih fun e he => hm e (List.mem_append_left _ he)) hle hp (sweep_runs hx)

end

/-! ## Retention spares the window -/

theorem cutoff_before_window {now begun tick updated created deadline period retention start : Int}
    (hbegun : begun ≤ now) (hperiod : now ≤ tick + period) (htick : tick ≤ updated + deadline)
    (hupdated : updated ≤ created + deadline + period)
    (h : created + 2 * (deadline + period) ≤ start + retention) : begun - retention ≤ start := by
  omega

/-- a sweep leaves the posts that are not older than its cutoff. -/
theorem minimizeRevisions_spares {d : Db} {before now : Instant} {limit : Nat} {o : Revision}
    (hu : KeyUnique Revision.revisionId d.revisions) (ho : o ∈ d.revisions)
    (h : before ≤ o.publishedAt) : o ∈ (d.minimizeRevisions before limit now).revisions := by
  refine mem_updateWhere.mpr ⟨o, ho, .inr ⟨?_, rfl⟩⟩
  rw [Bool.eq_false_iff]
  intro hcontains
  rw [List.contains_iff_mem] at hcontains
  obtain ⟨a, ha, hid⟩ := List.mem_map.mp hcontains
  have hmem := (List.mem_insertionSort _).mp (List.mem_of_mem_take ha)
  rw [List.mem_filter, Bool.and_eq_true] at hmem
  obtain rfl : a = o := hu.eq hmem.1 ho hid
  exact absurd (of_decide_eq_true hmem.2.1) (not_lt.mpr h)

/-- **No sweep takes a post from the run** when two deadlines and two reaper periods after its
acceptance are within retention. -/
theorem Lifetime.spares {C : Contracts} {K : Message → Prop} {w : Crew} {L : Limits} {R : Run}
    {log : List Event} {d : Db} {now tick : Instant} (h : Lifetime C K w L R log d now tick)
    (hm : ∀ e ∈ log, e.Manageable L)
    (hsafe : R.createdAt + 2 * (L.deadline + reaperPeriod) ≤ R.windowStart + L.retention) :
    ∀ e ∈ log, e.Spares R := by
  induction h with
  | accepted => exact fun e he => (by cases he)
  | happens _ _ _ _ ih => exact ih hm
  | reaps _ _ _ _ ih =>
    intro e he
    rcases List.mem_append.mp he with he | he
    · exact ih (fun e he => hm e (List.mem_append_left _ he)) e he
    · rw [List.mem_singleton.mp he]
      trivial
  | sweeps hlife hle hp hbegun hx ih =>
    have hm' := fun e he => hm e (List.mem_append_left _ he)
    intro e he
    rcases List.mem_append.mp he with he | he
    · exact ih hm' e he
    · rw [List.mem_singleton.mp he]
      rintro ⟨r, hr, hid, hpending⟩ o ho hstart -
      have hunreaped := hlife.unreaped hm'
      obtain ⟨htick, -, hupdated⟩ := hunreaped.pending r hr hid hpending
      have hcutoff := cutoff_before_window hbegun hp htick hupdated hsafe
      rcases sweep_runs hx with rfl | ⟨t, rfl⟩
      · exact ho
      · exact minimizeRevisions_spares hunreaped.revisionIds ho (hcutoff.trans hstart)

/-! ## A run that takes its time -/

section
variable {C : Contracts} {K : Message → Prop} {w : Crew} {L : Limits} {R : Run} {d : Db}
  {now tick : Instant}

theorem transaction_runs {ε α E : Type} {env : E → (q : Question) → q.Answer → E → Prop}
    {t : Moment → Sql ε (Fate α)} {m : Moment} {e e' : E} (h : env e .moment m e') :
    Runs (S := service) Eq env (transaction t) d e (settle (t m) m.fuse d).1
      (settle (t m) m.fuse d).2 e' :=
  .step (.step .refl (.asked h)) .acted

/-- a reaper tick that finds nothing overdue changes nothing. -/
theorem reap_idle {deadline : Int} (h : d.overdueRuns (now - deadline) = []) :
    Runs (S := service) Eq (atInstant now) (reapOnce C deadline now) d () (.ok 0) d () := by
  have hrows : updateWhere
      (fun r => ((d.overdueRuns (now - deadline)).map (·.runId)).contains r.runId)
      (Run.fail "deadline_exceeded" now) d.runs = d.runs := by
    rw [h]
    exact updateWhere_none fun _ _ => rfl
  have hreaped : (d.runs.filter fun r =>
      ((d.overdueRuns (now - deadline)).map (·.runId)).contains r.runId) = [] := by
    rw [h]
    exact List.filter_eq_nil_iff.mpr fun _ _ => Bool.false_ne_true
  have hrun : (reapTx C (now - deadline) ⟨now, id, none⟩).run none d = .ok (.committed 0, d) := by
    show (((reportReaped C ⟨now, id, none⟩ (d.runs.filter fun r =>
      ((d.overdueRuns (now - deadline)).map (·.runId)).contains r.runId) 0).bind fun _ =>
        Tx.commit .storage (d.runs.filter fun r =>
          ((d.overdueRuns (now - deadline)).map (·.runId)).contains r.runId).length).run none
      { d with
        runs := updateWhere
          (fun r => ((d.overdueRuns (now - deadline)).map (·.runId)).contains r.runId)
          (Run.fail "deadline_exceeded" now) d.runs }) = _
    rw [hrows, hreaped]
    rfl
  have hruns : Runs (S := service) Eq (atInstant now) (reapOnce C deadline now) d ()
      (settle (reapTx C (now - deadline) ⟨now, id, none⟩) none d).1
      (settle (reapTx C (now - deadline) ⟨now, id, none⟩) none d).2 () := transaction_runs rfl
  have hsettle : settle (reapTx C (now - deadline) ⟨now, id, none⟩) none d = (.ok 0, d) := by
    unfold settle
    rw [hrun]
  rw [hsettle] at hruns
  exact hruns

theorem Lifetime.period {log : List Event} (h : Lifetime C K w L R log d now tick) :
    now ≤ tick + reaperPeriod := by
  cases h with
  | accepted _ _ _ _ _ _ hperiod => exact hperiod
  | happens _ _ hp _ => exact hp
  | reaps _ _ _ _ => exact Int.le_add_of_nonneg_right (by decide)
  | sweeps _ _ hp _ _ => exact hp

theorem not_overdue {at_ until_ updated deadline : Int} (hle : at_ ≤ until_)
    (h : until_ ≤ updated + deadline) : ¬ updated < at_ - deadline := by
  omega

theorem next_tick {until_ tick period n : Int} (hn : until_ ≤ tick + (n + 1) * period) :
    until_ ≤ tick + period + n * period := by
  rw [Int.add_mul, Int.one_mul] at hn
  omega

theorem ticks_enough (until_ tick : Int) : ∃ n : Nat, until_ ≤ tick + n * (30 * 1000000) :=
  ⟨(until_ - tick).toNat, by omega⟩

/-- **The reaper ticks on and changes nothing** while no run is overdue. -/
theorem Lifetime.idles {log : List Event} (h : Lifetime C K w L R log d now tick)
    (until_ : Instant) (hle : now ≤ until_)
    (hquiet : ∀ r ∈ d.runs, until_ ≤ r.updatedAt + L.deadline) :
    ∃ log', Lifetime C K w L R (log ++ log') d until_ until_ ∧ ∀ e ∈ log', e.Manageable L := by
  have hnone : ∀ at_, at_ ≤ until_ → (d.runs.filter fun r =>
      r.state.open && decide (r.updatedAt < at_ - L.deadline)) = [] := by
    intro at_ hat
    rw [List.filter_eq_nil_iff]
    intro r hr
    rw [decide_eq_false (not_overdue hat (hquiet r hr)), Bool.and_false]
    exact Bool.false_ne_true
  have hidle : ∀ at_, at_ ≤ until_ →
      Runs (S := service) Eq (atInstant at_) (reapOnce C L.deadline at_) d () (.ok 0) d () := by
    intro at_ hat
    refine reap_idle ?_
    unfold Db.overdueRuns
    rw [hnone at_ hat]
    rfl
  have hmanageable : ∀ at_, at_ ≤ until_ → (Event.reap d at_).Manageable L := by
    intro at_ hat
    show (d.runs.filter fun r =>
      r.state.open && decide (r.updatedAt < at_ - L.deadline)).length ≤ reaperBatch
    rw [hnone at_ hat]
    exact Nat.zero_le _
  obtain ⟨n, hn⟩ := ticks_enough until_ tick
  change until_ ≤ tick + n * reaperPeriod at hn
  -- one tick more brings the last tick one period nearer
  induction n generalizing log now tick with
  | zero =>
    have hnear : until_ ≤ tick + reaperPeriod := by
      rw [show ((0 : Nat) : Int) * reaperPeriod = 0 from rfl, Int.add_zero] at hn
      exact hn.trans (Int.le_add_of_nonneg_right (by decide))
    refine ⟨_, .reaps h hle hnear (hidle until_ le_rfl), fun e he => ?_⟩
    rw [List.mem_singleton.mp he]
    exact hmanageable until_ le_rfl
  | succ n ih =>
    by_cases hnear : until_ ≤ tick + reaperPeriod
    · refine ⟨_, .reaps h hle hnear (hidle until_ le_rfl), fun e he => ?_⟩
      rw [List.mem_singleton.mp he]
      exact hmanageable until_ le_rfl
    · have hfar : tick + reaperPeriod ≤ until_ := (not_le.mp hnear).le
      have hnext := Lifetime.reaps h h.period le_rfl (hidle _ hfar)
      obtain ⟨log', hlife, hlog'⟩ := ih hnext hfar (next_tick (by exact_mod_cast hn))
      refine ⟨_ :: log', by rwa [List.append_assoc] at hlife, fun e he => ?_⟩
      rcases List.mem_cons.mp he with rfl | he
      · exact hmanageable _ hfar
      · exact hlog' e he

end

namespace Overrun

/-- a scheduled run over a window, accepted at an instant. -/
def run (start until_ accepted : Instant) : Run :=
  ⟨1, 1, 1, .scheduled, "", start, until_, .ru, .accepted, none, false, accepted, accepted⟩

/-- a post at the start of the window. -/
def post (start : Instant) : Revision := ⟨1, 1, 1, 0, some "text", start, start, "", none, none⟩

/-- the run and the post. -/
def db (start until_ accepted : Instant) : Db :=
  { Db.empty with runs := [run start until_ accepted], revisions := [post start] }

/-- the run after an executor has taken it on. -/
def acquiring (start until_ accepted now : Instant) : Db :=
  { Db.empty with
    runs := [(run start until_ accepted).enter .acquiring now]
    revisions := [post start] }

variable {C : Contracts} {start until_ accepted now : Instant}

theorem begins : Runs (S := service) Eq (atInstant now)
    (beginAcquisition C (run start until_ accepted).pendingRun) (db start until_ accepted) ()
    (.ok true) (acquiring start until_ accepted now) () := by
  have hruns : Runs (S := service) Eq (atInstant now)
      (beginAcquisition C (run start until_ accepted).pendingRun) (db start until_ accepted) ()
      (settle (beginAcquisitionTx C (run start until_ accepted).pendingRun ⟨now, id, none⟩) none
        (db start until_ accepted)).1
      (settle (beginAcquisitionTx C (run start until_ accepted).pendingRun ⟨now, id, none⟩) none
        (db start until_ accepted)).2 () := transaction_runs rfl
  exact hruns

theorem sweep_runs {before now' : Instant} : Runs (S := service) Eq (atInstant now')
    (minimizeBefore before sweepBatch) (acquiring start until_ accepted now) ()
    (.ok ((acquiring start until_ accepted now).agedRevisions before sweepBatch).length)
    ((acquiring start until_ accepted now).minimizeRevisions before sweepBatch now') () :=
  transaction_runs (m := ⟨now', id, none⟩) rfl

theorem sweeps {before now' : Instant} (h : start < before) :
    post start ∉ ((acquiring start until_ accepted now).minimizeRevisions before sweepBatch
      now').revisions := by
  have haged : (acquiring start until_ accepted now).agedRevisions before sweepBatch =
      [post start] := by
    have hfilter : ((acquiring start until_ accepted now).revisions.filter fun r =>
        decide (r.publishedAt < before) && r.body.isSome) = [post start] := by
      have hold : decide ((post start).publishedAt < before) = true := decide_eq_true h
      show ([post start].filter fun r => decide (r.publishedAt < before) && r.body.isSome) = _
      rw [List.filter_cons, hold]
      rfl
    unfold Db.agedRevisions
    rw [hfilter]
    rfl
  intro hmem
  unfold Db.minimizeRevisions at hmem
  rw [haged] at hmem
  obtain ⟨o, ho, ⟨-, hrow⟩ | ⟨hnot, -⟩⟩ := mem_updateWhere.mp hmem
  · have := congrArg Revision.body hrow
    cases this
  · rw [List.mem_singleton.mp ho] at hnot
    cases hnot

end Overrun

theorem overrun_cutoff {start accepted deadline period retention : Int}
    (h : ¬ accepted + 2 * (deadline + period) ≤ start + retention) :
    start < accepted + deadline + period + deadline + period - retention := by
  omega

/-- **A run that stays a deadline and a reaper period in each of its two states loses the post**
when that takes it beyond retention. -/
theorem overrun (C : Contracts) (K : Message → Prop) (w : Crew) (L : Limits)
    {start until_ accepted : Instant} (hwindow : start < until_)
    (h : ¬ accepted + 2 * (L.deadline + reaperPeriod) ≤ start + L.retention) :
    ∃ log d now tick, Lifetime C K w L (Overrun.run start until_ accepted) log d now tick ∧
      (∀ e ∈ log, e.Manageable L) ∧ ¬ ∀ e ∈ log, e.Spares (Overrun.run start until_ accepted) := by
  have hperiod : (0 : Int) ≤ reaperPeriod := by decide
  have h₀ : Lifetime C K w L (Overrun.run start until_ accepted) []
      (Overrun.db start until_ accepted) accepted accepted :=
    .accepted (List.nodup_singleton _) (List.nodup_singleton _) (List.mem_singleton.mpr rfl) rfl rfl
      le_rfl (Int.le_add_of_nonneg_right hperiod)
  obtain ⟨log₁, h₁, hlog₁⟩ := h₀.idles (accepted + L.deadline)
    (Int.le_add_of_nonneg_right L.deadline_nonneg) (fun r hr => by
      rw [List.mem_singleton.mp hr]
      exact le_rfl)
  have h₂ := Lifetime.happens h₁ (Int.le_add_of_nonneg_right hperiod) le_rfl
    (.begins (Overrun.begins (C := C)))
  obtain ⟨log₃, h₃, hlog₃⟩ := h₂.idles (accepted + L.deadline + reaperPeriod + L.deadline)
    (Int.le_add_of_nonneg_right L.deadline_nonneg) (fun r hr => by
      rw [List.mem_singleton.mp hr]
      exact le_rfl)
  have hcutoff := overrun_cutoff h
  have h₄ := Lifetime.sweeps h₃ (Int.le_add_of_nonneg_right hperiod) le_rfl le_rfl
    Overrun.sweep_runs
  refine ⟨_, _, _, _, h₄, fun e he => ?_, fun hspares => ?_⟩
  · rcases List.mem_append.mp he with he | he
    · rcases List.mem_append.mp he with he | he
      · exact hlog₁ e (by simpa using he)
      · exact hlog₃ e he
    · rw [List.mem_singleton.mp he]
      trivial
  · have hlost := hspares _ (List.mem_append_right _ (List.mem_singleton.mpr rfl))
      ⟨_, List.mem_singleton.mpr rfl, rfl, rfl⟩ (Overrun.post start) (List.mem_singleton.mpr rfl)
      le_rfl hwindow
    exact Overrun.sweeps hcutoff hlost

/-- **Retention spares the window of every run accepted at an instant exactly when two deadlines
and two reaper periods after it are within retention**, in every course of time whose reaper ticks
are manageable. -/
theorem windows_spared_iff (C : Contracts) (K : Message → Prop) (w : Crew) (L : Limits)
    {start until_ accepted : Instant} (hwindow : start < until_) :
    (∀ R : Run, R.windowStart = start → R.windowEnd = until_ → R.createdAt = accepted →
      ∀ log d now tick, Lifetime C K w L R log d now tick → (∀ e ∈ log, e.Manageable L) →
        ∀ e ∈ log, e.Spares R) ↔
      accepted + 2 * (L.deadline + reaperPeriod) ≤ start + L.retention := by
  constructor
  · intro h
    by_contra hover
    obtain ⟨log, d, now, tick, hlife, hm, hnot⟩ := overrun C K w L hwindow hover
    exact hnot (h _ rfl rfl rfl log d now tick hlife hm)
  · rintro hsafe R rfl rfl rfl log d now tick hlife hm
    exact hlife.spares hm hsafe

/-- the shortest retention and the longest deadline. -/
def Sample.tight : Limits := ⟨8, 86400, by decide, by decide⟩

/-- the defaults of retention and deadline. -/
def Sample.spacious : Limits := ⟨30, 3600, by decide, by decide⟩

/-- with the shortest retention and the longest deadline a sweep takes a post from the seven days
before a run was accepted. -/
theorem tight_retention_takes : ¬ ∀ (L : Limits) (R : Run), R.windowStart < R.windowEnd →
    R.windowEnd - R.windowStart ≤ 7 * 86400 * second → R.windowEnd ≤ R.createdAt →
    ∀ log d now tick, Lifetime Sample.contracts (fun _ => True) .one L R log d now tick →
      ∀ e ∈ log, e.Spares R := by
  intro h
  have hwindow : (0 : Instant) < 7 * 86400 * second := by decide
  have hover : ¬ 7 * 86400 * second + 2 * (Sample.tight.deadline + reaperPeriod) ≤
      0 + Sample.tight.retention := by decide
  obtain ⟨log, d, now, tick, hlife, -, hnot⟩ :=
    overrun Sample.contracts (fun _ => True) .one Sample.tight hwindow hover
  exact hnot (h Sample.tight _ (by decide) (by decide) le_rfl log d now tick hlife)

/-- the defaults spare the seven days before a run was accepted. -/
theorem spacious_retention_spares : (0 : Instant) < 7 * 86400 * second ∧
    ∀ R : Run, R.windowStart = 0 → R.windowEnd = 7 * 86400 * second →
      R.createdAt = 7 * 86400 * second → ∀ log d now tick,
      Lifetime Sample.contracts (fun _ => True) .one Sample.spacious R log d now tick →
      (∀ e ∈ log, e.Manageable Sample.spacious) → ∀ e ∈ log, e.Spares R :=
  ⟨by decide, (windows_spared_iff _ _ _ _ (by decide)).mpr (by decide)⟩

end ChannelDigests
