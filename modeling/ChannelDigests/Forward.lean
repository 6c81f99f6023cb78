import ChannelDigests.Refinement
import ChannelDigests.Documents

/-!
# Run state only moves forward

* `RunState.rank`        accepted, acquiring, waiting for a recap, ended;
* `transitionRun`        `RunRepository::transition`, the one writer of runs outside the worker;
* `Run.Forward`          one row before and after a committed change;
* `Change.forward`       every change moves every row forward or leaves its clock alone;
* `runs_move_forward`    **the same of every move of a worker**, and ended runs stay as they ended.
-/

namespace ChannelDigests
open Lib

/-- how far a run has come. -/
def RunState.rank : RunState → Nat
  | .accepted => 0
  | .acquiring => 1
  | .waitingRecap => 2
  | .completed | .partially | .failed => 3

/-! ## The repository -/

inductive RunError where
  | unavailable

/-- the row after a transition. -/
def Run.transition (target : RunState) (failureClass : Option String) (now : Instant) (r : Run) :
    Run :=
  { r with state := target, safeFailureClass := failureClass, updatedAt := now }

/-- the run is in the expected state and has not ended. -/
def Run.expected (runId : Uuid) (state : RunState) (r : Run) : Bool :=
  r.runId = runId && r.state = state && !r.state.terminal

/-- `channel_digests.transition_run`; the answer says whether a row changed. -/
def transitionRun (runId : Uuid) (expected target : RunState) (failureClass : Option String) :
    Action RunError Bool :=
  statement fun m => .change .unavailable
    (fun d => { d with
      runs := updateWhere (Run.expected runId expected) (Run.transition target failureClass m.now)
        d.runs })
    fun d => decide (0 < d.runs.countP (Run.expected runId expected))

/-! ## One row -/

/-- the run `r` is `r'` after a committed change. -/
structure Run.Forward (r r' : Run) : Prop where
  runId : r'.runId = r.runId
  advances : r'.state ≠ r.state → r.state.rank < r'.state.rank
  clock : r'.updatedAt ≠ r.updatedAt → r'.state ≠ r.state
  ended : r.state.terminal = true → r'.state = r.state ∧ r'.safeFailureClass = r.safeFailureClass

theorem Kind.moves_rank {k : Kind} {a b : RunState} (h : k.moves a b = true) : a.rank < b.rank := by
  revert h
  cases k <;> cases a <;> cases b <;> decide

theorem RunMoves.forward {k : Kind} {r r' : Run} (h : RunMoves k r r') : r.Forward r' where
  runId := h.runId
  advances hne := Kind.moves_rank (h.state.resolve_left hne)
  clock hne hs := hne (h.clock hs)
  ended ht := ⟨h.terminal ht, h.failureClass (h.terminal ht)⟩

section
variable {C : Contracts} {S : Setting}

/-- **Every change moves every run forward.** -/
theorem Change.forward {K : Message → Prop} {w : Crew} {k : Kind} {d d' : Db}
    (h : Change C K w k d d') (hd : d.Keyed) {r : Run} (hr : r ∈ d.runs) :
    ∃ r' ∈ d'.runs, r.Forward r' := by
  obtain ⟨r', hr', hm⟩ := h.run_kept hd.runs hr
  exact ⟨r', hr', hm.forward⟩

theorem Run.Forward.refl (r : Run) : r.Forward r :=
  ⟨rfl, fun h => absurd rfl h, fun h => absurd rfl h, fun _ => ⟨rfl, rfl⟩⟩

/-- a move of a sound pool moves every run forward. -/
theorem move_forward {P P' : Pool service (Task C) Empty Ending} (hP : (discipline C S).Sound P)
    (hm : Pool.Move (worker C S) P P') {r : Run} (hr : r ∈ P.state.runs) :
    ∃ r' ∈ P'.state.runs, r.Forward r' := by
  rcases hP.change hm with he | ⟨t, o, hg⟩
  · rw [he]
    exact ⟨r, hr, .refl r⟩
  · rcases hg.1 with he | ⟨k, -, hc⟩
    · rw [he]
      exact ⟨r, hr, .refl r⟩
    · exact hc.forward hP.inv hr

/-- an ended run stays as it ended, however long the worker goes on. -/
theorem reach_ended {P P' : Pool service (Task C) Empty Ending} (hP : (discipline C S).Sound P)
    (h : Pool.Reach (worker C S) P P') {r : Run} (hr : r ∈ P.state.runs)
    (ht : r.state.terminal = true) :
    ∃ r' ∈ P'.state.runs, r'.runId = r.runId ∧ r'.state = r.state ∧
      r'.safeFailureClass = r.safeFailureClass := by
  induction h with
  | refl => exact ⟨r, hr, rfl, rfl, rfl⟩
  | tail hreach hm ih =>
    obtain ⟨r₁, hr₁, hid, hstate, hclass⟩ := ih
    obtain ⟨r₂, hr₂, hf⟩ := move_forward (Discipline.sound_reach hP hreach) hm hr₁
    have hend := hf.ended (by rw [hstate]; exact ht)
    exact ⟨r₂, hr₂, hf.runId.trans hid, hend.1.trans hstate, hend.2.trans hclass⟩

/-- `transition_run` leaves ended runs alone, whatever it is called with. -/
theorem transitionRun_ended {E : Type} {env : E → (q : Question) → q.Answer → E → Prop}
    {runId : Uuid} {expected target : RunState} {failureClass : Option String} {d d' : Db} {e e' : E}
    {answer : Except RunError Bool}
    (h : Runs (S := service) Eq env (transitionRun runId expected target failureClass) d e answer d' e')
    {r : Run} (hr : r ∈ d.runs) (ht : r.state.terminal = true) : r ∈ d'.runs := by
  have w : Surrounds (Eq (α := Db)) env True := ⟨fun _ => rfl, Eq.trans, fun _ _ _ _ _ => trivial⟩
  have hsafe : Prog.Safe (S := service) Eq env (always fun _ _ => True)
      (transitionRun runId expected target failureClass) (fun _ d _ => r ∈ d.runs) d e := by
    refine safe_change w (fun s' hs' _ => ⟨trivial, fun _ => hs' ▸ hr⟩) fun m s' _ _ hs' => ?_
    refine ⟨trivial, mem_updateWhere.mpr ⟨r, hs' ▸ hr, .inr ⟨?_, rfl⟩⟩⟩
    rw [Run.expected, ht, Bool.not_true, Bool.and_false]
  obtain ⟨t, rfl, hq⟩ := hsafe.runs (fun _ => rfl) Eq.trans h
  exact hq

/-- **Run state only moves forward.**  From every state that a worker reaches, whatever it runs at
the same time: a move takes every run forward or leaves its state and its clock; an ended run keeps
its state and failure class for ever, and `transition_run` does not touch it. -/
theorem runs_move_forward {P P' : Pool service (Task C) Empty Ending}
    (h : Pool.Reach (worker C S) ⟨[], Db.empty⟩ P) (h' : Pool.Reach (worker C S) P P') :
    (∀ P'', Pool.Move (worker C S) P' P'' →
      ∀ r ∈ P'.state.runs, ∃ r' ∈ P''.state.runs, r.Forward r') ∧
    (∀ r ∈ P.state.runs, r.state.terminal = true → ∃ r' ∈ P'.state.runs, r'.runId = r.runId ∧
      r'.state = r.state ∧ r'.safeFailureClass = r.safeFailureClass) ∧
    ∀ (runId : Uuid) (expected target : RunState) (failureClass : Option String)
      (answer : Except RunError Bool) (d : Db),
      Runs (S := service) Eq (fun (_ : Unit) _ _ _ => True)
        (transitionRun runId expected target failureClass) P.state () answer d () →
      ∀ r ∈ P.state.runs, r.state.terminal = true → r ∈ d.runs := by
  have hP := reach_sound h
  refine ⟨fun P'' hm r hr => ?_, fun r hr ht => reach_ended hP h' hr ht, ?_⟩
  · exact move_forward (Discipline.sound_reach hP h') hm hr
  · intro runId expected target failureClass answer d hx r hr ht
    exact transitionRun_ended hx hr ht

end

theorem settled_moves_forward :
    Sample.settled.runs.map (fun r => (r.runId, r.state)) = [(50, .completed)] ∧
    ∀ r ∈ Sample.settled.runs, r.state.terminal = true → ∃ r' ∈ Sample.settled.runs,
      r'.runId = r.runId ∧ r'.state = r.state ∧ r'.safeFailureClass = r.safeFailureClass :=
  ⟨by decide +kernel, (runs_move_forward (Pool.play_reach Sample.wholeDay_allowed) .refl).2.1⟩

end ChannelDigests
