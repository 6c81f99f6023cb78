import ChannelDigests.Retention
import ChannelDigests.Forward
import ChannelDigests.Lib.Batch

/-!
# No run stays open

A reaper tick fails at most a batch of the overdue runs, those first that have been in their states
longest.  Whatever the executors, the provider and Knowledge do meanwhile, a run that is overdue
only moves up in this line, and so every run ends.

* `Run.place`, `Db.ahead`   the line of the reaper, and how many open runs are before a run;
* `Stamped`           an open run that is new or moved is stamped with the instant of its change;
* `Timeline`          changes and reaper ticks in time;
* `reaper_starves_none`   **a run leaves its state after as many overdue ticks as there are batches
                      before it**;
* `Paced`             a course with a tick every period, and a bound on the open runs;
* `run_ends_in_time`  **a run ends within three deadlines and the ticks that its line takes**.
-/

namespace ChannelDigests
open Lib Prog

/-! ## The line of the reaper -/

/-- where a run stands: since when it is in its state, and its identity. -/
def Run.place (r : Run) : Int ×ₗ Nat := toLex (r.updatedAt, r.runId)

/-- the run is open and before `r`. -/
def Run.before (r x : Run) : Bool := x.state.open && decide (x.place < r.place)

/-- how many open runs are before `r`. -/
def Db.ahead (d : Db) (r : Run) : Nat := d.runs.countP r.before

/-- how many runs are open. -/
def Db.openRuns (d : Db) : Nat := d.runs.countP (·.state.open)

/-- every open run that is new or moved is stamped with the instant. -/
def Stamped (now : Instant) (d d' : Db) : Prop :=
  ∀ r' ∈ d'.runs, r'.state.open = true →
    r'.updatedAt = now ∨ ∃ r ∈ d.runs, r.runId = r'.runId ∧ r.state = r'.state

theorem Run.place_lt {r x : Run} (h : r.updatedAt < x.updatedAt) : ¬ x.place < r.place := by
  refine not_lt.mpr (Prod.Lex.toLex_le_toLex.mpr (.inl ?_))
  exact h

section
variable {C : Contracts} {K : Message → Prop} {w : Crew} {k : Kind} {d d' : Db} {now : Instant}
  {r x : Run}

theorem Stamped.same (h : d'.runs = d.runs) (now : Instant) : Stamped now d d' :=
  fun r' hr' _ => .inr ⟨r', h ▸ hr', rfl, rfl⟩

/-- a change that appends runs of one instant. -/
theorem Stamped.added {new : List Run} (h : d'.runs = d.runs ++ new)
    (hnew : ∀ r ∈ new, r.updatedAt = now) : Stamped now d d' := by
  intro r' hr' _
  rw [h] at hr'
  rcases List.mem_append.mp hr' with hr' | hr'
  · exact .inr ⟨r', hr', rfl, rfl⟩
  · exact .inl (hnew r' hr')

/-- a change that moves some runs at one instant. -/
theorem Stamped.updated {p : Run → Bool} {u : Run → Run} (h : d'.runs = updateWhere p u d.runs)
    (hu : ∀ r, (u r).state.open = true → (u r).updatedAt = now ∨
      (u r).runId = r.runId ∧ (u r).state = r.state) : Stamped now d d' := by
  intro r' hr' hopen
  rw [h] at hr'
  obtain ⟨o, ho, ⟨-, rfl⟩ | ⟨-, rfl⟩⟩ := mem_updateWhere.mp hr'
  · rcases hu o hopen with hnow | ⟨hid, hstate⟩
    · exact .inl hnow
    · exact .inr ⟨o, ho, hid.symm, hstate.symm⟩
  · exact .inr ⟨_, ho, rfl, rfl⟩

theorem fannedOut_stamp {m : Moment} {o : OccurrenceRequest} {subs : List Subscription}
    {owners : List Uuid} {n : Nat} {runs runs' : List Run}
    (h : FannedOut m o subs owners n runs runs') :
    ∃ new, runs' = runs ++ new ∧ ∀ r ∈ new, r.updatedAt = m.now := by
  induction owners generalizing n runs with
  | nil => exact ⟨[], by rw [List.append_nil]; exact h, fun _ hr => (by cases hr)⟩
  | cons ownerId owners ih =>
    obtain ⟨-, mid, hmid, hrest⟩ := h
    obtain ⟨new, rfl, hnew⟩ := ih hrest
    rcases hmid with ⟨rfl, -⟩ | ⟨rfl, -, -⟩
    · exact ⟨new, rfl, hnew⟩
    · refine ⟨_ :: new, by rw [List.append_assoc]; rfl, fun r hr => ?_⟩
      rcases List.mem_cons.mp hr with rfl | hr
      · rfl
      · exact hnew r hr

/-- **Every change stamps the open runs that it writes** with the moment of its transaction. -/
theorem Change.stamped (h : Change C K w k d d') : ∃ now, Stamped now d d' := by
  have hf : Table.runs ∉ k.writes → ∃ now, Stamped now d d' := fun ht =>
    ⟨0, .same (h.frame .runs ht) 0⟩
  cases h with
  | @created m _ _ _ _ _ _ h =>
    obtain ⟨-, -, -, -, ob, -, rfl⟩ := h
    refine ⟨m.now, .added rfl fun r hr => ?_⟩
    rw [List.mem_singleton.mp hr]
    rfl
  | repeated _ h =>
    obtain ⟨-, -, ob, -, rfl⟩ := h
    exact ⟨0, .updated rfl fun r _ => .inr ⟨rfl, rfl⟩⟩
  | @occurrence m _ _ _ _ h =>
    obtain ⟨-, runs, ob, hruns, -, rfl⟩ := h
    obtain ⟨new, rfl, hnew⟩ := fannedOut_stamp hruns
    exact ⟨m.now, .added rfl hnew⟩
  | @acquiring m _ _ _ _ h =>
    obtain ⟨-, ob, -, rfl⟩ := h
    exact ⟨m.now, .updated rfl fun r _ => .inl rfl⟩
  | recorded _ _ => exact ⟨0, .updated rfl fun r _ => .inr ⟨rfl, rfl⟩⟩
  | @empty m _ _ _ _ h =>
    obtain ⟨-, ob, -, rfl⟩ := h
    exact ⟨m.now, .updated rfl fun r _ => .inl rfl⟩
  | @failed m _ _ _ _ _ h =>
    obtain ⟨-, ob, -, rfl⟩ := h
    exact ⟨m.now, .updated rfl fun r _ => .inl rfl⟩
  | @manifest m _ _ _ _ h _ =>
    rw [h.effect]
    exact ⟨m.now, .updated rfl fun r _ => .inl rfl⟩
  | @completion m _ _ _ _ _ _ _ _ _ _ _ h _ =>
    obtain ⟨-, -, -, -, -, -, ob, -, rfl⟩ := h
    exact ⟨m.now, .updated rfl fun r _ => .inl rfl⟩
  | @recapFailure m _ _ _ _ _ _ _ h =>
    obtain ⟨-, -, -, -, ob, -, rfl⟩ := h
    exact ⟨m.now, .updated rfl fun r _ => .inl rfl⟩
  | @reaped m _ _ _ h =>
    obtain ⟨ob, -, rfl⟩ := h
    exact ⟨m.now, .updated rfl fun r _ => .inl rfl⟩
  | _ => exact hf (by decide)

/-- **Nothing gets before a run** that was in its state before the instant of the change. -/
theorem Change.ahead_le (h : Change C K w k d d') (hu : KeyUnique Run.runId d.runs)
    (hs : Stamped now d d') (hx : x.updatedAt < now) : d'.ahead x ≤ d.ahead x := by
  obtain ⟨u, new, hd', hmove, hnew, -⟩ := h.runs hu
  have hunique := hnew.fresh hu
  have hold : ∀ y ∈ d'.runs, x.before y = true →
      ∃ r ∈ d.runs, r.runId = y.runId ∧ r.state = y.state := by
    intro y hy hbefore
    rw [Run.before, Bool.and_eq_true, decide_eq_true_eq] at hbefore
    refine (hs y hy hbefore.1).resolve_left fun hnow => ?_
    exact Run.place_lt (hnow ▸ hx) hbefore.2
  have hnone : new.countP x.before = 0 := by
    refine List.countP_eq_zero.mpr fun y hy hbefore => ?_
    obtain ⟨r, hr, hid, -⟩ := hold y (by rw [hd']; exact List.mem_append_right _ hy) hbefore
    unfold KeyUnique at hunique
    rw [List.map_append] at hunique
    have hne := (List.nodup_append.mp hunique).2.2
    exact hne _ (List.mem_map_of_mem hr) _ (List.mem_map_of_mem hy) hid
  unfold Db.ahead
  rw [hd', List.countP_append, hnone, Nat.add_zero, List.countP_map]
  refine List.countP_mono_left fun y hy hbefore => ?_
  have hmem : u y ∈ d'.runs := by
    rw [hd']
    exact List.mem_append_left _ (List.mem_map_of_mem hy)
  obtain ⟨r, hr, hid, hstate⟩ := hold (u y) hmem hbefore
  obtain rfl : r = y := hu.eq hr hy (hid.trans (hmove y hy).runId)
  have hplace : (u r).place = r.place := by
    unfold Run.place
    rw [(hmove r hy).clock hstate.symm, (hmove r hy).runId]
  rw [Function.comp, Run.before, ← hstate, hplace] at hbefore
  exact hbefore

/-- a run is not before itself. -/
theorem ahead_lt_open (hr : r ∈ d.runs) (hopen : r.state.open = true) : d.ahead r < d.openRuns := by
  have hsplit := List.countP_eq_countP_filter_add d.runs (fun x => x.state.open) r.before
  rw [List.countP_filter, List.countP_filter] at hsplit
  have hahead : d.ahead r = d.runs.countP fun x => x.state.open && r.before x := by
    refine List.countP_congr fun x _ => ?_
    rw [Run.before]
    cases x.state.open <;> simp
  have hself : 0 < d.runs.countP fun x => x.state.open && !r.before x := by
    refine List.countP_pos_iff.mpr ⟨r, hr, ?_⟩
    rw [Run.before, hopen, decide_eq_false (lt_irrefl _)]
    rfl
  unfold Db.openRuns
  omega

/-- a tick leaves the runs open that it does not fail. -/
theorem RunsReaped.stamped {m : Moment} {cutoff : Instant} (h : RunsReaped m d d' cutoff)
    (now : Instant) : Stamped now d d' := by
  obtain ⟨ob, -, rfl⟩ := h
  refine .updated rfl fun r hopen => ?_
  cases hopen

/-- the place of a run is its own. -/
theorem places_unique (hu : KeyUnique Run.runId d.runs) : KeyUnique Run.place d.runs :=
  hu.of_key fun _ _ h => congrArg (fun p => (ofLex p).2) h

/-- **A tick fails an overdue run or a batch of the runs before it.** -/
theorem RunsReaped.ahead {m : Moment} {cutoff : Instant} (h : RunsReaped m d d' cutoff)
    (hu : KeyUnique Run.runId d.runs) (hx : x ∈ d.runs) (hopen : x.state.open = true)
    (hover : x.updatedAt < cutoff) :
    (∃ y ∈ d'.runs, y.runId = x.runId ∧ y.state = .failed) ∨
      x ∈ d'.runs ∧ d'.ahead x + reaperBatch ≤ d.ahead x := by
  obtain ⟨ob, -, rfl⟩ := h
  by_cases hin : d.reaped cutoff x = true
  · exact .inl ⟨_, mem_updateWhere.mpr ⟨x, hx, .inl ⟨hin, rfl⟩⟩, rfl, rfl⟩
  · rw [Bool.not_eq_true] at hin
    refine .inr ⟨mem_updateWhere.mpr ⟨x, hx, .inr ⟨hin, rfl⟩⟩, ?_⟩
    refine updateBatch_ahead Run.place Run.runId
      (p := fun r : Run => r.state.open && decide (r.updatedAt < cutoff)) (places_unique hu) hx ?_ hin
      ?_ fun _ => rfl
    · rw [hopen, decide_eq_true hover]
      rfl
    · intro y hlt hy
      rw [Bool.and_eq_true] at hy
      rw [Run.before, hy.1, decide_eq_true hlt]
      rfl

end

/-! ## Courses -/

section
variable (C : Contracts) (K : Message → Prop) (w : Crew) (deadline : Int)

/-- a course of time from a database, with the instants of its reaper ticks: other changes happen,
and ticks that find the instant of their clock succeed. -/
inductive Timeline (d₀ : Db) (now₀ : Instant) : List Instant → Db → Instant → Prop where
  | start : Timeline d₀ now₀ [] d₀ now₀
  | happens {ticks d now now' d' k} : Timeline d₀ now₀ ticks d now → now ≤ now' →
      Change C K w k d d' → Stamped now' d d' → Timeline d₀ now₀ ticks d' now'
  | reaps {ticks d now now' d' n} : Timeline d₀ now₀ ticks d now → now ≤ now' →
      Runs (S := service) Eq (atInstant now') (reapOnce C deadline now') d () (.ok n) d' () →
      Timeline d₀ now₀ (ticks ++ [now']) d' now'

end

/-- the run has left the state that `r` was in, or it is there and waits in the line of the reaper
behind as many runs less as the ticks have failed. -/
structure Awaits (r : Run) (line overdue : Nat) (d : Db) : Prop where
  runIds : KeyUnique Run.runId d.runs
  row : ∃ x ∈ d.runs, x.runId = r.runId ∧ (r.state.rank < x.state.rank ∨
    x.state = r.state ∧ x.updatedAt = r.updatedAt ∧ d.ahead r + reaperBatch * overdue ≤ line)

section
variable {C : Contracts} {K : Message → Prop} {w : Crew} {deadline : Int} {k : Kind} {d₀ d d' : Db}
  {now₀ now now' : Instant} {ticks : List Instant} {r : Run} {line overdue : Nat}

/-- the line of a run depends on its place only. -/
theorem ahead_congr {x : Run} (hid : x.runId = r.runId) (hat : x.updatedAt = r.updatedAt) (d : Db) :
    d.ahead x = d.ahead r := by
  unfold Db.ahead Run.before Run.place
  rw [hid, hat]

theorem Awaits.happens (h : Awaits r line overdue d) (hsince : r.updatedAt < now')
    (hc : Change C K w k d d') (hs : Stamped now' d d') : Awaits r line overdue d' := by
  obtain ⟨x, hx, hid, hstate⟩ := h.row
  obtain ⟨y, hy, hm⟩ := hc.run_kept h.runIds hx
  refine ⟨hc.runIds h.runIds, y, hy, hm.runId.trans hid, ?_⟩
  rcases hm.state with hsame | hmove
  · rw [hsame]
    refine hstate.imp_right fun ⟨heq, hat, hline⟩ => ⟨heq, (hm.clock hsame).trans hat, ?_⟩
    exact (Nat.add_le_add_right (hc.ahead_le h.runIds hs hsince) _).trans hline
  · have hlt := Kind.moves_rank hmove
    refine .inl (Nat.lt_of_le_of_lt ?_ hlt)
    rcases hstate with hfar | ⟨heq, -, -⟩
    · exact hfar.le
    · rw [heq]

theorem failed_rank {a : RunState} (h : a.open = true) : a.rank < RunState.failed.rank := by
  revert h
  cases a <;> decide

/-- **An overdue tick fails the run or shortens its line by a batch.** -/
theorem Awaits.reaps (C : Contracts) (h : Awaits r line overdue d) (hopen : r.state.open = true)
    (hsince : r.updatedAt < now') (hx : ∃ m, RunsReaped m d d' (now' - deadline)) :
    Awaits r line (overdue + if r.updatedAt < now' - deadline then 1 else 0) d' := by
  obtain ⟨m, hreaped⟩ := hx
  have hs : Stamped now' d d' := hreaped.stamped now'
  have hchange : Change C (fun _ => True) .many .reaped d d' := .reaped hreaped
  split_ifs with hover
  swap
  · exact h.happens hsince hchange hs
  obtain ⟨x, hx, hid, hstate⟩ := h.row
  rcases hstate with hfar | ⟨heq, hat, hline⟩
  · have hkept : Awaits r line overdue d' := h.happens hsince hchange hs
    obtain ⟨y, hy, hm⟩ := hchange.run_kept h.runIds hx
    refine ⟨hkept.runIds, y, hy, hm.runId.trans hid, .inl ?_⟩
    rcases hm.state with hsame | hmove
    · rwa [hsame]
    · exact hfar.trans (Kind.moves_rank hmove)
  · refine ⟨hchange.runIds h.runIds, ?_⟩
    rcases hreaped.ahead h.runIds hx (heq ▸ hopen) (hat ▸ hover) with
      ⟨y, hy, hyid, hyfailed⟩ | ⟨hkept, hshorter⟩
    · exact ⟨y, hy, hyid.trans hid, .inl (hyfailed ▸ failed_rank hopen)⟩
    · rw [ahead_congr hid hat, ahead_congr hid hat] at hshorter
      refine ⟨x, hkept, hid, .inr ⟨heq, hat, ?_⟩⟩
      rw [Nat.mul_add, Nat.mul_one]
      omega

theorem Timeline.since_le (h : Timeline C K w deadline d₀ now₀ ticks d now) : now₀ ≤ now := by
  induction h with
  | start => exact le_rfl
  | happens _ hle _ _ ih => exact ih.trans hle
  | reaps _ hle _ ih => exact ih.trans hle

theorem Timeline.awaits (h : Timeline C K w deadline d₀ now₀ ticks d now)
    (hr : Awaits r line 0 d₀) (hopen : r.state.open = true) (hsince : r.updatedAt < now₀) :
    Awaits r line (ticks.countP fun t => decide (r.updatedAt < t - deadline)) d := by
  induction h with
  | start => exact hr
  | happens hx hle hc hs ih => exact ih.happens (hsince.trans_le (hx.since_le.trans hle)) hc hs
  | reaps hx hle ht ih =>
    have := ih.reaps C hopen (hsince.trans_le (hx.since_le.trans hle)) (reap_runs ht)
    rw [List.countP_append, List.countP_singleton]
    simpa only [decide_eq_true_eq] using this

/-- **The reaper starves no run.**  Whatever happens between its ticks: an open run has left its
state after as many ticks that find it overdue as there are batches of open runs before it. -/
theorem reaper_starves_none (h : Timeline C K w deadline d₀ now₀ ticks d now)
    (hu : KeyUnique Run.runId d₀.runs) (hr : r ∈ d₀.runs) (hopen : r.state.open = true)
    (hsince : r.updatedAt < now₀)
    (hticks : d₀.ahead r < reaperBatch * ticks.countP fun t => decide (r.updatedAt < t - deadline)) :
    ∃ x ∈ d.runs, x.runId = r.runId ∧ r.state.rank < x.state.rank := by
  have hstart : Awaits r (d₀.ahead r) 0 d₀ := ⟨hu, r, hr, rfl, .inr ⟨rfl, rfl, le_rfl⟩⟩
  obtain ⟨x, hx, hid, hstate⟩ := (h.awaits hstart hopen hsince).row
  refine ⟨x, hx, hid, hstate.resolve_right fun ⟨_, _, hline⟩ => ?_⟩
  exact absurd hticks (not_lt.mpr ((Nat.le_add_left _ _).trans hline))

end

/-! ## Every run ends -/

/-- the settings of the reaper: its deadline, its period, and for how many batches of open runs. -/
structure Pace where
  deadline : Int
  period : Int
  batches : Nat
  deadline_nonneg : 0 ≤ deadline
  period_nonneg : 0 ≤ period

/-- the longest time in one state. -/
def Pace.stay (p : Pace) : Int := p.deadline + p.batches * p.period

section
variable (C : Contracts) (K : Message → Prop) (w : Crew) (p : Pace)

/-- a course of time since the run was accepted, with the clock and the last reaper tick: no period
passes without a tick, and never are more runs open than the batches hold. -/
inductive Paced (R : Run) : Db → Instant → Instant → Prop where
  | accepted {d tick} : KeyUnique Run.runId d.runs → R ∈ d.runs → R.state = .accepted →
      R.updatedAt = R.createdAt → tick ≤ R.createdAt → R.createdAt ≤ tick + p.period →
      d.openRuns ≤ reaperBatch * p.batches → Paced R d R.createdAt tick
  | happens {d now tick now' d' k} : Paced R d now tick → now ≤ now' → now' ≤ tick + p.period →
      Change C K w k d d' → Stamped now' d d' → d'.openRuns ≤ reaperBatch * p.batches →
      Paced R d' now' tick
  | reaps {d now tick now' d' n} : Paced R d now tick → now ≤ now' → now' ≤ tick + p.period →
      Runs (S := service) Eq (atInstant now') (reapOnce C p.deadline now') d () (.ok n) d' () →
      Paced R d' now' now'

end

/-- what is known of the run while it is open: it got into its state in time, and since it is
overdue each tick took a batch of the runs before it. -/
structure InLine (p : Pace) (R x : Run) (d : Db) (tick : Instant) (overdue : Nat) : Prop where
  entered : x.updatedAt ≤ R.createdAt + x.state.rank * p.stay
  tick_le : tick ≤ x.updatedAt + p.deadline + overdue * p.period
  line : overdue = 0 ∨ x.updatedAt + p.deadline < tick ∧
    d.ahead x + reaperBatch * overdue < reaperBatch * p.batches

/-- the run is there, and if it is open it is in line. -/
structure OnTime (p : Pace) (R : Run) (d : Db) (now tick : Instant) : Prop where
  runIds : KeyUnique Run.runId d.runs
  load : d.openRuns ≤ reaperBatch * p.batches
  since : tick ≤ now
  period : now ≤ tick + p.period
  row : ∃ x ∈ d.runs, x.runId = R.runId ∧
    (x.state.open = true → x.updatedAt ≤ now ∧ ∃ overdue, InLine p R x d tick overdue)

section
variable {C : Contracts} {K : Message → Prop} {w : Crew} {p : Pace} {k : Kind} {d d' : Db}
  {now now' tick : Instant} {R x : Run} {overdue : Nat}

theorem stay_bound {now tick updated deadline period n b : Int} (hnow : now ≤ tick + period)
    (htick : tick ≤ updated + deadline + n * period) (hn : (n + 1) * period ≤ b * period) :
    now ≤ updated + (deadline + b * period) := by
  rw [Int.add_mul, Int.one_mul] at hn
  omega

/-- a run that is in line leaves its state in time. -/
theorem InLine.stays (h : InLine p R x d tick overdue) (hx : x ∈ d.runs) (hopen : x.state.open = true)
    (hload : d.openRuns ≤ reaperBatch * p.batches) (hnow : now ≤ tick + p.period) :
    now ≤ x.updatedAt + p.stay := by
  have hbatches : overdue + 1 ≤ p.batches := by
    rcases h.line with rfl | ⟨-, hline⟩
    · have := ahead_lt_open hx hopen
      by_contra hnot
      obtain hzero : p.batches = 0 := by omega
      rw [hzero] at hload
      omega
    · by_contra hnot
      have hle : reaperBatch * p.batches ≤ reaperBatch * overdue :=
        Nat.mul_le_mul_left _ (by omega)
      omega
  have hstay : ((overdue : Int) + 1) * p.period ≤ p.batches * p.period :=
    Int.mul_le_mul_of_nonneg_right (by exact_mod_cast hbatches) p.period_nonneg
  exact stay_bound hnow h.tick_le hstay

theorem Pace.stay_nonneg (p : Pace) : 0 ≤ p.stay :=
  Int.add_nonneg p.deadline_nonneg (Int.mul_nonneg (Int.natCast_nonneg _) p.period_nonneg)

theorem entered_bound {created updated now stay a b : Int} (hs : 0 ≤ stay) (hab : a + 1 ≤ b)
    (hupdated : updated ≤ created + a * stay) (hnow : now ≤ updated + stay) :
    now ≤ created + b * stay := by
  have hmul : (a + 1) * stay ≤ b * stay := Int.mul_le_mul_of_nonneg_right hab hs
  rw [Int.add_mul, Int.one_mul] at hmul
  omega

/-- a run that gets into a state at an instant is in line there. -/
theorem InLine.enter {y : Run} (h : InLine p R x d tick overdue) (hx : x ∈ d.runs)
    (hopen : x.state.open = true) (hload : d.openRuns ≤ reaperBatch * p.batches)
    (hsince : tick ≤ now) (hnow : now ≤ tick + p.period) (hy : y.updatedAt = now)
    (hrank : x.state.rank < y.state.rank) : InLine p R y d' tick 0 where
  entered := by
    have hstay := h.stays hx hopen hload hnow
    rw [hy]
    exact entered_bound p.stay_nonneg (by exact_mod_cast hrank) h.entered hstay
  tick_le := by
    have hzero : ((0 : Nat) : Int) * p.period = 0 := Int.zero_mul _
    rw [hy, hzero, Int.add_zero]
    exact hsince.trans (Int.le_add_of_nonneg_right p.deadline_nonneg)
  line := .inl rfl

/-- a state that is not open is the last one. -/
theorem open_of_rank_lt {a b : RunState} (hb : b.open = true) (h : a.rank < b.rank) :
    a.open = true := by
  revert hb h
  cases a <;> cases b <;> decide

theorem overdue_since {updated deadline tick now : Int} (hd : 0 ≤ deadline)
    (h : updated + deadline < tick) (hle : tick ≤ now) : updated < now := by
  omega

/-- **A change leaves the run on time.** -/
theorem OnTime.happens (h : OnTime p R d now tick) (hle : now ≤ now') (hp : now' ≤ tick + p.period)
    (hc : Change C K w k d d') (hs : Stamped now' d d')
    (hload : d'.openRuns ≤ reaperBatch * p.batches) : OnTime p R d' now' tick := by
  obtain ⟨x, hx, hid, hline⟩ := h.row
  obtain ⟨y, hy, hm⟩ := hc.run_kept h.runIds hx
  refine ⟨hc.runIds h.runIds, hload, h.since.trans hle, hp, y, hy, hm.runId.trans hid, fun hopen => ?_⟩
  rcases hm.state with hsame | hmove
  · obtain ⟨hat, overdue, hin⟩ := hline (hsame ▸ hopen)
    have hclock := hm.clock hsame
    refine ⟨hclock ▸ hat.trans hle, overdue, ?_, hclock ▸ hin.tick_le, ?_⟩
    · rw [hclock, hsame]
      exact hin.entered
    · refine hin.line.imp_right fun ⟨hover, hahead⟩ => ⟨hclock ▸ hover, ?_⟩
      have hbefore : x.updatedAt < now' := overdue_since p.deadline_nonneg hover (h.since.trans hle)
      rw [ahead_congr hm.runId hclock]
      exact Nat.lt_of_le_of_lt (Nat.add_le_add_right (hc.ahead_le h.runIds hs hbefore) _) hahead
  · have hrank := Kind.moves_rank hmove
    have hxopen := open_of_rank_lt hopen hrank
    obtain ⟨hat, overdue, hin⟩ := hline hxopen
    have hnow : y.updatedAt = now' := by
      refine (hs y hy hopen).resolve_right fun ⟨r, hr, hrid, hrstate⟩ => ?_
      obtain rfl : r = x := h.runIds.eq hr hx (hrid.trans hm.runId)
      exact absurd hrank (by rw [hrstate]; exact lt_irrefl _)
    exact ⟨hnow.le, 0, hin.enter hx hxopen h.load (h.since.trans hle) hp hnow hrank⟩

theorem pace_bound {now tick updated deadline period n : Int} (hnow : now ≤ tick + period)
    (htick : tick ≤ updated + deadline + n * period) :
    now ≤ updated + deadline + (n + 1) * period := by
  rw [Int.add_mul, Int.one_mul]
  omega

/-- **A tick leaves the run on time.** -/
theorem OnTime.reaps (C : Contracts) (h : OnTime p R d now tick) (hle : now ≤ now')
    (hp : now' ≤ tick + p.period) (hx : ∃ m, RunsReaped m d d' (now' - p.deadline)) :
    OnTime p R d' now' now' := by
  obtain ⟨m, hreaped⟩ := hx
  have hs : Stamped now' d d' := hreaped.stamped now'
  have hc : Change C (fun _ => True) .many .reaped d d' := .reaped hreaped
  have hload : d'.openRuns ≤ reaperBatch * p.batches := by
    refine (?_ : d'.openRuns ≤ d.openRuns).trans h.load
    obtain ⟨ob, -, rfl⟩ := hreaped
    exact updateBatch_le (p := fun r : Run => r.state.open) (fun _ => rfl) _
  have hkept := h.happens hle hp hc hs hload
  obtain ⟨x, hx, hid, hline⟩ := h.row
  refine ⟨hkept.runIds, hload, le_rfl, Int.le_add_of_nonneg_right p.period_nonneg, ?_⟩
  obtain ⟨y, hy, hm⟩ := hc.run_kept h.runIds hx
  refine ⟨y, hy, hm.runId.trans hid, fun hopen => ?_⟩
  have hsame : y.state = x.state := by
    refine hm.state.resolve_right fun hmove => ?_
    revert hmove hopen
    cases x.state <;> cases y.state <;> decide
  have hclock := hm.clock hsame
  obtain ⟨hat, overdue, hin⟩ := hline (hsame ▸ hopen)
  refine ⟨hclock ▸ hat.trans hle, ?_⟩
  by_cases hover : now' ≤ x.updatedAt + p.deadline
  · -- the run is not overdue yet
    refine ⟨0, ?_, ?_, .inl rfl⟩
    · rw [hclock, hsame]
      exact hin.entered
    · have hzero : ((0 : Nat) : Int) * p.period = 0 := Int.zero_mul _
      rw [hzero, Int.add_zero, hclock]
      exact hover
  · refine ⟨overdue + 1, ?_, ?_, .inr ⟨hclock ▸ not_le.mp hover, ?_⟩⟩
    · rw [hclock, hsame]
      exact hin.entered
    · rw [hclock]
      exact pace_bound hp hin.tick_le
    · rcases hreaped.ahead h.runIds hx (hsame ▸ hopen) (ChannelDigests.overdue hover) with
        ⟨o, ho, hoid, hfailed⟩ | ⟨-, hshorter⟩
      · obtain rfl : o = y := hkept.runIds.eq ho hy (hoid.trans hm.runId.symm)
        rw [hfailed] at hopen
        cases hopen
      · rw [ahead_congr hm.runId hclock]
        have hbefore : d.ahead x + reaperBatch * overdue < reaperBatch * p.batches := by
          rcases hin.line with rfl | ⟨-, hlt⟩
          · exact Nat.lt_of_lt_of_le (ahead_lt_open hx (hsame ▸ hopen)) h.load
          · exact hlt
        rw [Nat.mul_add, Nat.mul_one]
        omega

/-- **The run is on time** in every paced course. -/
theorem Paced.onTime (h : Paced C K w p R d now tick) : OnTime p R d now tick := by
  induction h with
  | @accepted d tick hu hr hstate hupdated htick hp hload =>
    refine ⟨hu, hload, htick, hp, R, hr, rfl, fun _ => ⟨hupdated.le, 0, ?_, ?_, .inl rfl⟩⟩
    · rw [hupdated]
      exact Int.le_add_of_nonneg_right (Int.mul_nonneg (Int.natCast_nonneg _) p.stay_nonneg)
    · have hzero : ((0 : Nat) : Int) * p.period = 0 := Int.zero_mul _
      rw [hupdated, hzero, Int.add_zero]
      exact htick.trans (Int.le_add_of_nonneg_right p.deadline_nonneg)
  | happens _ hle hp hc hs hload ih => exact ih.happens hle hp hc hs hload
  | reaps _ hle hp hx ih => exact ih.reaps C hle hp (reap_runs hx)

/-- **Every run ends in time.**  While the reaper ticks every period and never more runs are open
than the batches hold, a run has ended when three stays have passed since it was accepted, whatever
the executors, the provider and Knowledge do. -/
theorem run_ends_in_time (h : Paced C K w p R d now tick) (hlate : R.createdAt + 3 * p.stay < now) :
    ∃ x ∈ d.runs, x.runId = R.runId ∧ x.state.terminal = true := by
  have hon := h.onTime
  obtain ⟨x, hx, hid, hline⟩ := hon.row
  refine ⟨x, hx, hid, ?_⟩
  by_contra hnot
  have hopen : x.state.open = true := by
    revert hnot
    cases x.state <;> decide
  obtain ⟨-, overdue, hin⟩ := hline hopen
  have hstay := hin.stays hx hopen hon.load hon.period
  have hthree : now ≤ R.createdAt + 3 * p.stay := by
    refine entered_bound (a := x.state.rank) p.stay_nonneg ?_ hin.entered hstay
    revert hopen
    cases x.state <;> decide
  exact absurd hlate (not_lt.mpr hthree)

end

/-! ## A sample -/

namespace Sample

/-- a minute, a tick every hundred seconds, one batch. -/
def pace : Pace := ⟨60 * second, 100 * second, 1, by decide, by decide⟩

/-- the run after the reaper failed it. -/
def lapsed (now : Instant) : Db :=
  { Db.empty with
    runs := [(Overrun.run 0 1 0).fail "deadline_exceeded" now]
    revisions := [Overrun.post 0] }

variable {C : Contracts}

/-- the tick after a hundred seconds fails the run. -/
theorem lapses : Runs (S := service) Eq (atInstant (100 * second))
    (reapOnce C pace.deadline (100 * second)) (Overrun.db 0 1 0) () (.ok 1)
    (lapsed (100 * second)) () := by
  have hruns : Runs (S := service) Eq (atInstant (100 * second))
      (reapOnce C pace.deadline (100 * second)) (Overrun.db 0 1 0) ()
      (settle (reapTx C (100 * second - pace.deadline) ⟨100 * second, id, none⟩) none
        (Overrun.db 0 1 0)).1
      (settle (reapTx C (100 * second - pace.deadline) ⟨100 * second, id, none⟩) none
        (Overrun.db 0 1 0)).2 () := transaction_runs rfl
  exact hruns

/-- the reaper ticks on. -/
theorem ticks {now : Instant} (h : Paced C (fun _ => True) .one pace (Overrun.run 0 1 0)
    (lapsed (100 * second)) now now) : Paced C (fun _ => True) .one pace (Overrun.run 0 1 0)
    (lapsed (100 * second)) (now + 100 * second) (now + 100 * second) :=
  .reaps h (Int.le_add_of_nonneg_right (by decide)) le_rfl (reap_idle rfl)

end Sample

/-- the run is first in line and fails at the first overdue tick. -/
theorem lapsed_not_starved : ∃ x ∈ (Sample.lapsed (100 * second)).runs,
    x.runId = (Overrun.run 0 1 0).runId ∧ (Overrun.run 0 1 0).state.rank < x.state.rank := by
  have hcourse : Timeline Sample.contracts (fun _ => True) .one Sample.pace.deadline
      (Overrun.db 0 1 0) second [100 * second] (Sample.lapsed (100 * second)) (100 * second) :=
    .reaps .start (by decide) Sample.lapses
  exact reaper_starves_none hcourse (List.nodup_singleton _) (List.mem_singleton.mpr rfl) rfl
    (by decide) (by decide +kernel)

/-- after five ticks the run has ended. -/
theorem lapsed_in_time : ∃ x ∈ (Sample.lapsed (100 * second)).runs,
    x.runId = (Overrun.run 0 1 0).runId ∧ x.state.terminal = true := by
  have h₀ : Paced Sample.contracts (fun _ => True) .one Sample.pace (Overrun.run 0 1 0)
      (Overrun.db 0 1 0) 0 0 :=
    .accepted (List.nodup_singleton _) (List.mem_singleton.mpr rfl) rfl rfl le_rfl (by decide)
      (by decide)
  have h₁ := Paced.reaps h₀ (by decide) (by decide) Sample.lapses
  exact run_ends_in_time (Sample.ticks (Sample.ticks (Sample.ticks (Sample.ticks h₁)))) (by decide)

end ChannelDigests
