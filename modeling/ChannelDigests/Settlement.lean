import ChannelDigests.Refinement
import ChannelDigests.Documents

/-!
# The first consistent fact settles a run

Facts are checked by separate reads before their transaction, so several of them may pass for one
run.  The transaction that inserts the result of the run decides.

* `settleCompletion_decides`, `settleFailure_decides`   a fact is applied by its last step only;
* `Db.unsettled`          a run without a result, the token that an applied fact spends;
* `Task.Leaves`           what the applied fact leaves of the run;
* `one_fact_settles`      **at most one fact is applied, and every other one is without trace**.
-/

namespace ChannelDigests
open Lib Prog

/-! ## A fact is applied by its last step -/

section
variable {C : Contracts}

theorem decides_transaction {ε ε' α β : Type} {W : Except ε' β → Prop}
    {t : Moment → Sql ε (Fate α)} {k : Except ε α → Action ε' β}
    (h : ∀ r, (∃ r', k r = .done r') ∨ (k r).Decides W) :
    Decides (S := service) W ((transaction t).next k) := fun _ _ => h _

theorem decides_readDb {α β : Type} {W : Except CoordinatorError β → Prop} {g : Db → α}
    {k : α → Action CoordinatorError β} (h : ∀ a, (∃ r, k a = .done r) ∨ (k a).Decides W) :
    Decides (S := service) W (readDb g >>= k) :=
  decides_transaction fun
    | .ok a => h a
    | .error x => .inl ⟨.error x, rfl⟩

theorem settleCompletion_decides (messageId : Uuid) (completion : C.Bytes) :
    Decides (S := service) (· = .ok .applied) (settleCompletion C messageId completion) := by
  unfold settleCompletion
  split
  · exact nofun
  split_ifs
  · exact nofun
  split
  · exact nofun
  refine decides_readDb fun incomplete => .inr (decides_readDb fun stored => ?_)
  rcases stored with _ | stored
  · refine .inr (decides_readDb fun durable => ?_)
    rcases durable with _ | durable
    · exact .inl ⟨_, rfl⟩
    · dsimp only
      split_ifs
      · exact .inl ⟨_, rfl⟩
      · exact .inr fun _ _ => .inl ⟨_, rfl⟩
  · dsimp only
    split_ifs <;> exact .inl ⟨_, rfl⟩

theorem settleFailure_decides (messageId : Uuid) (failure : C.Bytes) :
    Decides (S := service) (· = .ok .applied) (settleFailure C messageId failure) := by
  unfold settleFailure
  split
  · exact nofun
  split_ifs
  · exact nofun
  refine decides_readDb fun durable => ?_
  rcases durable with _ | ⟨run, manifest⟩
  · exact .inl ⟨_, rfl⟩
  · dsimp only
    split_ifs
    · exact .inl ⟨_, rfl⟩
    · exact .inl ⟨_, rfl⟩
    · exact .inr fun _ _ => .inl ⟨_, rfl⟩

namespace Task

/-- the task settles a run by a fact. -/
def isFact : Task C → Bool
  | .settleCompletion _ _ | .settleFailure _ _ => true
  | _ => false

/-- the fact of the task names the run. -/
def names (runId : Uuid) : Task C → Prop
  | .settleCompletion _ completion =>
    ∃ fact, C.completed.fromSlice completion = some fact ∧ fact.digestRunId = runId
  | .settleFailure _ failure =>
    ∃ fact, C.failed.fromSlice failure = some fact ∧ fact.digestRunId = runId
  | _ => False

/-- the answer of a task that applied a fact to the run. -/
def Applies (runId : Uuid) (t : Task C) (r : Except Empty Ending) : Prop :=
  t.names runId ∧ r = .ok .applied

end Task

theorem body_decides {S : Setting} (runId : Uuid) (t : Task C) :
    Decides (S := service) (t.Applies runId) ((worker C S).body t) := by
  cases t with
  | settleCompletion messageId completion =>
    refine (decides_map (S := service) _ _).mpr
      ((settleCompletion_decides messageId completion).mono fun r h => ?_)
    simpa [Ending.applied] using h.2
  | settleFailure messageId failure =>
    refine (decides_map (S := service) _ _).mpr
      ((settleFailure_decides messageId failure).mono fun r h => ?_)
    simpa [Ending.applied] using h.2
  | _ => exact (decides_never (S := service) _).mono fun _ h => h.1

end

/-! ## The token -/

/-- the run has no result. -/
def Db.unsettled (d : Db) (runId : Uuid) : Prop := ∀ x ∈ d.results, x.runId ≠ runId

section
variable {C : Contracts} {S : Setting} {d d' : Db} {t : Task C}

theorem Setting.Makes.unsettled (h : S.Makes t d d') {runId : Uuid} (hu : d'.unsettled runId) :
    d.unsettled runId := by
  rcases h with rfl | ⟨k, -, hc⟩
  · exact hu
  · exact fun x hx => hu x (hc.result_kept hx)

/-- inserting a free result spends the token of its run. -/
theorem unsettled_spent {row : DigestResult} (hfree : d.resultFree row)
    (hd' : d'.results = d.results ++ [row]) :
    d.unsettled row.runId ∧ ¬ d'.unsettled row.runId := by
  refine ⟨fun x hx => (hfree x hx).2.1, fun hu => hu row ?_ rfl⟩
  rw [hd']
  exact List.mem_append_right _ List.mem_cons_self

/-- the step that applies a fact inserts the result of its run. -/
theorem Task.Verdict.spends {runId : Uuid} {r : Except Empty Ending}
    (h : t.Verdict d d' (some r)) (ha : t.Applies runId r) :
    d.unsettled runId ∧ ¬ d'.unsettled runId := by
  obtain ⟨hn, rfl⟩ := ha
  cases t with
  | settleCompletion messageId completion =>
    obtain ⟨fact, hf, rfl⟩ := hn
    obtain ⟨x, hx, ⟨-, hne⟩ | ⟨-, fact', _, _, _, _, _, hf', -, hset⟩⟩ := h
    · rcases x with _ | x
      · cases hx
      · exact absurd (by simpa [Ending.applied] using hx.symm) hne
    · cases hf.symm.trans hf'
      obtain ⟨ob, -, heq⟩ := hset.effect
      exact unsettled_spent hset.free (congrArg Db.results heq)
  | settleFailure messageId failure =>
    obtain ⟨fact, hf, rfl⟩ := hn
    obtain ⟨x, hx, ⟨-, hne⟩ | ⟨-, fact', _, _, hf', hset⟩⟩ := h
    · rcases x with _ | x
      · cases hx
      · exact absurd (by simpa [Ending.applied] using hx.symm) hne
    · cases hf.symm.trans hf'
      obtain ⟨ob, -, heq⟩ := hset.effect
      exact unsettled_spent hset.free (congrArg Db.results heq)
  | _ => exact absurd hn id

/-- a step of a fact leaves the database as it is, or it applies the fact. -/
theorem Task.Verdict.trace {o : Option (Except Empty Ending)} (h : t.Verdict d d' o)
    (ht : t.isFact = true) : d' = d ∨ o = some (.ok .applied) := by
  cases t with
  | settleCompletion messageId completion =>
    obtain ⟨x, rfl, ⟨rfl, -⟩ | ⟨rfl, -⟩⟩ := h
    · exact .inl rfl
    · exact .inr rfl
  | settleFailure messageId failure =>
    obtain ⟨x, rfl, ⟨rfl, -⟩ | ⟨rfl, -⟩⟩ := h
    · exact .inl rfl
    · exact .inr rfl
  | _ => cases ht

end

/-! ## What an applied fact leaves -/

/-- the run ended with this one result. -/
structure Db.Settled (d : Db) (r : Run) (row : DigestResult) : Prop where
  run : ∃ r' ∈ d.runs, r'.runId = r.runId ∧ r'.ownerId = r.ownerId ∧
    r'.state = row.outcome.state ∧
    (row.outcome = .failed → r'.safeFailureClass = row.safeFailureClass)
  results : (d.results.filter fun x => x.runId = r.runId) = [row]

/-- what the fact of a task leaves of the run `r` once it is applied. -/
def Task.Leaves {C : Contracts} (r : Run) (d : Db) : Task C → Prop
  | .settleCompletion _ completion =>
    ∃ fact analysisId, C.completed.fromSlice completion = some fact ∧
      fact.analysisRef = some analysisId ∧ fact.digestRunId = r.runId ∧ fact.owner = r.ownerId ∧
      ∃ m ∈ d.manifests, m.runId = r.runId ∧ m.ownerId = r.ownerId ∧
        fact.manifestDigest = m.sha256 ∧ fact.countsAgree m ∧
        ∃ createdAt, d.Settled r (fact.result analysisId m.manifestId r.ownerId
          (completionOutcome fact.omittedCount r.acquisitionIncomplete) createdAt)
  | .settleFailure _ failure =>
    ∃ fact resultId, C.failed.fromSlice failure = some fact ∧ fact.digestRunId = r.runId ∧
      fact.owner = r.ownerId ∧
      ∃ m ∈ d.manifests, m.runId = r.runId ∧ m.ownerId = r.ownerId ∧
        fact.manifestDigest = m.sha256 ∧
        ∃ createdAt, d.Settled r (fact.result resultId m.manifestId createdAt)
  | _ => False

theorem completionOutcome_ne_failed (omitted : Nat) (incomplete : Bool) :
    completionOutcome omitted incomplete ≠ .failed := by
  unfold completionOutcome
  split_ifs <;> decide

theorem Db.Keyed.results_eq {d : Db} (hd : d.Keyed) {row : DigestResult} (h : row ∈ d.results)
    {runId : Uuid} (hid : row.runId = runId) :
    (d.results.filter fun x => x.runId = runId) = [row] := by
  subst hid
  exact hd.resultRuns.filter_eq h

section
variable {C : Contracts} {S : Setting} {d d' : Db} {t : Task C} {r : Run}

/-- what stands of an applied fact, for a run that was there before it was delivered. -/
theorem Task.Settles.leaves {x : Except Empty Ending} (h : t.Settles S.crew x d')
    (hev : Evolves C S.sent S.crew (fun _ => True) d d') (hd : d.Keyed) (hcrew : S.crew = .none)
    (hr : r ∈ d.runs) (ha : t.Applies r.runId x) : t.Leaves r d' := by
  obtain ⟨hn, rfl⟩ := ha
  have hd' := hev.keyed hd
  -- the run keeps its owner and, without an executor, its completeness.
  obtain ⟨-, r', hr', hid, howner, hflag⟩ := hev.keeps
    (I := fun d => d.Keyed ∧ ∃ r' ∈ d.runs, r'.runId = r.runId ∧ r'.ownerId = r.ownerId ∧
      r'.acquisitionIncomplete = r.acquisitionIncomplete)
    (fun _ hc ⟨hk, r₁, h₁, e1, e2, e3⟩ => by
      obtain ⟨r₂, h₂, hm⟩ := hc.run_kept hk.runs h₁
      exact ⟨hc.keyed hk, r₂, h₂, hm.runId.trans e1, hm.ownerId.trans e2,
        (hm.flag (hc.not_recorded hcrew)).trans e3⟩) ⟨hd, r, hr, rfl, rfl, rfl⟩
  have h := h rfl
  cases t with
  | settleCompletion messageId completion =>
    obtain ⟨fact, hf, hrun⟩ := hn
    obtain ⟨fact', hf', analysisId, incomplete, ha, hinc, r₁, h₁, m, hm, e1, e2, e3, e4, e5, e6, e7,
      createdAt, e8⟩ := h
    cases hf.symm.trans hf'
    obtain rfl := hd'.runs.eq h₁ hr' (by rw [e1, hid, hrun])
    obtain rfl : incomplete = r.acquisitionIncomplete := by
      rw [hinc hcrew, ← e1, ← e2, Db.incompleteFlag, hd'.ownRun h₁]
      exact hflag
    have ho : fact.owner = r.ownerId := e2.symm.trans howner
    refine ⟨fact, analysisId, hf, ha, hrun, ho, m, hm, e3.trans hrun, e4.trans ho, e5.symm, e6,
      createdAt, ⟨r₁, h₁, hid, howner, e7, fun hn => absurd hn (completionOutcome_ne_failed _ _)⟩, ?_⟩
    rw [← ho]
    exact hd'.results_eq e8 hrun
  | settleFailure messageId failure =>
    obtain ⟨fact, hf, hrun⟩ := hn
    obtain ⟨fact', hf', resultId, r₁, h₁, m, hm, e1, e2, e3, e4, e5, e6, e7,
      createdAt, e8⟩ := h
    cases hf.symm.trans hf'
    obtain rfl := hd'.runs.eq h₁ hr' (by rw [e1, hid, hrun])
    have ho : fact.owner = r.ownerId := e2.symm.trans howner
    exact ⟨fact, resultId, hf, hrun, ho, m, hm, e3.trans hrun, e4.trans ho, e5.symm,
      createdAt, ⟨r₁, h₁, hid, howner, e6, fun _ => e7⟩, hd'.results_eq e8 hrun⟩
  | _ => exact absurd hn id

/-- **The first consistent fact settles a run and every other fact is without trace.**  Whatever
facts are delivered for a stored run beside the other tasks of a worker without an executor: at
most one of them is applied to the run, the run and its one result are those of this fact, and a
step of a fact that does not apply it changes nothing. -/
theorem one_fact_settles {S₀ : Setting} (h₀ : Reachable C S₀ d) (hcrew : S.crew = .none)
    (hr : r ∈ d.runs) {P : Pool service (Task C) Empty Ending}
    (h : Pool.Reach (worker C S) ⟨[], d⟩ P) :
    (∀ (i j : Nat) u v, P.threads[i]? = some u → P.threads[j]? = some v →
      u.Won (Task.Applies r.runId) → v.Won (Task.Applies r.runId) → i = j) ∧
    (∀ u ∈ P.threads, u.Won (Task.Applies r.runId) → u.task.Leaves r P.state) ∧
    ∀ (i : Nat) t f k, P.threads[i]? = some ⟨t, .act f k, true⟩ → t.isFact = true →
      f P.state = P.state ∨ k P.state = .done (.ok .applied) := by
  have hd : d.Keyed := h₀.keeps .empty fun hc => hc.keyed
  have hsound := Discipline.sound_empty (D := discipline C S) hd
  obtain ⟨hP, hev⟩ := reach_evolves h hsound
  refine ⟨fun i j u v hu hv hwu hwv => ?_, fun u hu hwu => ?_, fun i t f k hi ht => ?_⟩
  · have hone : Discipline.Exclusive (fun d : Db => d.unsettled r.runId) (Task.Applies r.runId) P :=
      Discipline.sound_exclusive hsound h (body_decides r.runId)
        (fun _ hg hu => hg.1.unsettled hu) (fun _ hg ha => hg.2.spends ha)
        ⟨by simp, by simp, by simp⟩
    exact hone.single hu hv hwu hwv
  · obtain ⟨x, hx, ha⟩ := hwu
    exact Task.Settles.leaves (hP.post hu hx) hev hd hcrew hr ha
  · exact ((hP.guar hi).2.trace ht).imp_right fun ho => Prog.eq_done ho

end

/-- a completion and a failure pass their checks, and the failure commits first. -/
def Sample.rivals : List (Turn service (Task Sample.contracts)) :=
  [.start (.settleCompletion 103 (.payload (.completed Sample.fact))),
    .start (.settleFailure 104 (.payload (.failed Sample.failure))),
    .run 0 6 (answers 8 4000 Sample.page), .run 1 100 (answers 9 5000 Sample.page),
    .run 0 100 (answers 10 6000 Sample.page)]

/-- the pool after these turns. -/
def Sample.rival : Pool service (Task Sample.contracts) Empty Ending :=
  Pool.play (worker Sample.contracts (Sample.setting .none False)) Sample.rivals
    ⟨[], Sample.waiting⟩

theorem rivals_settle : Sample.rival.state.runs.map (·.state) = [.failed] ∧
    Sample.rival.threads.map (fun u => u.rest.answer?) =
      [some (.ok (.coordinator (.error .storage))), some (.ok .applied)] ∧
    ∀ r ∈ Sample.waiting.runs, ∀ u ∈ Sample.rival.threads, u.Won (Task.Applies r.runId) →
      u.task.Leaves r Sample.rival.state := by
  refine ⟨by decide +kernel, by decide +kernel, fun r hr =>
    (one_fact_settles Sample.waiting_reachable rfl hr (Pool.play_reach ?_)).2.1⟩
  refine ⟨starts_beside ?_ id rfl rfl, starts_beside ?_ id rfl rfl,
    fun u _ => answers_given _ _ _ _, fun u _ => answers_given _ _ _ _,
    fun u _ => answers_given _ _ _ _, trivial⟩
  · rintro _ ⟨⟩
    simp [Sample.setting, Sample.messages]
  · rintro _ ⟨⟩
    simp [Sample.setting, Sample.messages]

end ChannelDigests
