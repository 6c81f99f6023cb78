import ChannelDigests.Refinement
import ChannelDigests.Documents
import ChannelDigests.Lib.Stages

/-!
# Executors that overlap on one run

During a restart two workers may execute one run at the same time.  Each call records the
completeness of what it read by a statement of its own and commits its manifest later; a settlement
reads the completeness and applies it later still.

* `Calling`, `Settling`      how far an `execute_one` call and the handling of a completion are,
                             with their next statements;
* `tick_passes`, `settleCompletion_passes`   **the programs go through these stages**;
* `Shift`, `Shift.Step`      any number of them on one database, with who recorded and who
                             committed;
* `Shift.Sound`              what they left stands in the database;
* `Shift.undisturbed_settlements`   **a settlement that read the record of the committing call uses
                             its completeness**;
* `overlapping_record_misleads`     and otherwise a partial reading ends completed.
-/

namespace ChannelDigests
open Lib Prog

/-! ## Stages -/

/-- how far an `execute_one` call is. -/
inductive Calling where
  | idle
  | picked (run : PendingRun)
  | listed (run : PendingRun) (listed : Db)
  | selected (p : Proceeding)
  | recorded (p : Proceeding)

/-- what a call leaves for others: a recorded completeness, or a committed manifest. -/
inductive Mark where
  | recorded (p : Proceeding)
  | committed (p : Proceeding) (manifest : CanonicalManifest)

/-- the transaction was applied. -/
def wasApplied : Except CoordinatorError IntakeOutcome → Bool
  | .ok .applied => true
  | _ => false

/-- the next statement or transaction of a call with a source count, from one database to the
next; any statement may be lost. -/
inductive Calling.Moves (C : Contracts) (sourceCount : Nat) :
    Calling → Db → Option Mark → Db → Calling → Prop where
  | pauses {st d} : Moves C sourceCount st d none d st
  | picks {d now run} : d.selectPending now = some run →
      Moves C sourceCount .idle d none d (.picked run)
  | begins {run d m} : Moves C sourceCount (.picked run) d none
      (settle (beginAcquisitionTx C run m) m.fuse d).2 (.picked run)
  | lists {run d} : Moves C sourceCount (.picked run) d none d (.listed run d)
  | walks {run listed d d'} : WalkStep C d d' →
      Moves C sourceCount (.listed run listed) d none d' (.listed run listed)
  | drops {run listed d m failure} : Moves C sourceCount (.listed run listed) d none
      (settle (failRunTx C run.runId run.ownerId failure m) m.fuse d).2 (.listed run listed)
  | selects {run listed outcomes d} : (⟨run, listed, outcomes, d⟩ : Proceeding).Walked →
      Moves C sourceCount (.listed run listed) d none d (.selected ⟨run, listed, outcomes, d⟩)
  | records {p d} : Moves C sourceCount (.selected p) d (some (.recorded p))
      (d.record p.run.runId (p.incomplete sourceCount)) (.recorded p)
  | fails {p : Proceeding} {d m failure} : Moves C sourceCount (.recorded p) d none
      (settle (failRunTx C p.run.runId p.run.ownerId failure m) m.fuse d).2 (.recorded p)
  | completes {p : Proceeding} {d m} : Moves C sourceCount (.recorded p) d none
      (settle (completeEmptyRunTx C p.run.runId p.run.ownerId m) m.fuse d).2 (.recorded p)
  | commits {p : Proceeding} {d m manifest manifestId request} :
      build C manifestId p.run.ownerId p.run.runId p.run.windowStart p.run.windowEnd
        (p.selection sourceCount).sources = .ok manifest →
      request = recapRequest p.run manifest → request.announces manifest = true →
      Moves C sourceCount (.recorded p) d
        (if wasApplied (settle (commitManifestTx manifest request m) m.fuse d).1
          then some (.committed p manifest) else none)
        (settle (commitManifestTx manifest request m) m.fuse d).2 (.recorded p)

/-- how far the handling of a completion is. -/
inductive Settling where
  | idle
  | read (fact : RecapCompleted) (incomplete : Bool)
  | checked (fact : RecapCompleted) (incomplete : Bool)
  | ended

/-- what a settlement does: it reads the completeness of its run, or it settles the run by it. -/
inductive Act where
  | reads (fact : RecapCompleted)
  | settles (fact : RecapCompleted) (incomplete : Bool)

/-- the next statement or transaction of a settlement. -/
inductive Settling.Moves (C : Contracts) : Settling → Db → Option Act → Db → Settling → Prop where
  | pauses {st d} : Moves C st d none d st
  | reads {fact : RecapCompleted} {d} : Moves C .idle d (some (.reads fact)) d
      (.read fact (d.incompleteFlag fact.digestRunId fact.owner))
  | checks {fact : RecapCompleted} {incomplete d durable} :
      d.durable fact.digestRunId fact.owner = some durable → fact.consistent durable = true →
      Moves C (.read fact incomplete) d none d (.checked fact incomplete)
  | settles {fact : RecapCompleted} {incomplete d m analysisId messageId sha} :
      fact.analysisRef = some analysisId →
      Moves C (.checked fact incomplete) d
        (if wasApplied (settle (settleCompletionTx C fact analysisId messageId sha incomplete m)
            m.fuse d).1
          then some (.settles fact incomplete) else none)
        (settle (settleCompletionTx C fact analysisId messageId sha incomplete m) m.fuse d).2 .ended

/-! ## The programs go through the stages -/

section
variable {C : Contracts} {σ : Type} {M : σ → Db → Db → σ → Prop} {st : σ}

theorem follows_transaction {ε α : Type} {t : Moment → Sql ε (Fate α)} {Q : Except ε α → σ → Prop}
    (h : ∀ m d, ∃ st', M st d (settle (t m) m.fuse d).2 st' ∧ Q (settle (t m) m.fuse d).1 st') :
    Follows (S := service) M (transaction t) Q st := h

/-- one statement that reads, or that changes the database by `f`. -/
theorem follows_change {ε α : Type} {x : ε} {f : Moment → Db → Db} {g : Moment → Db → α}
    {Q : Except ε α → σ → Prop} (hst : ∀ d, M st d d st) (hx : Q (.error x) st)
    (h : ∀ m d, ∃ st', M st d (f m d) st' ∧ Q (.ok (g m d)) st') :
    Follows (S := service) M (statement fun m => .change x (f m) (g m)) Q st := by
  refine follows_transaction fun m d => ?_
  have hclose : Tx.closes True (Tx.change x (f m) (g m) >>= fun a => pure (.committed a))
      (fun r d' => ∃ st', M st d d' st' ∧ Q r st') d := ⟨fun _ => ⟨st, hst d, hx⟩, h m d⟩
  exact settle_of_closes m.fuse (fun _ => trivial) hclose

/-- one read and what follows it. -/
theorem follows_read {ε α β : Type} {x : ε} {g : Moment → Db → α} {k : α → Action ε β}
    {Q : Except ε β → σ → Prop} (hst : ∀ d, M st d d st) (hx : Q (.error x) st)
    (h : ∀ m d, ∃ st', M st d d st' ∧ Follows (S := service) M (k (g m d)) Q st') :
    Follows (S := service) M ((statement fun m => .read x (g m)) >>= k) Q st :=
  (follows_bind (S := service) _ _).mpr (follows_change (f := fun _ d => d) hst hx h)

end

namespace Calling
variable {C : Contracts} {sourceCount : Nat}

/-- a step of a call, whatever it leaves for others. -/
def Steps (C : Contracts) (sourceCount : Nat) (st : Calling) (d d' : Db) (st' : Calling) : Prop :=
  ∃ mark, Moves C sourceCount st d mark d' st'

theorem Steps.pause {st : Calling} (d : Db) : Steps C sourceCount st d d st := ⟨none, .pauses⟩

/-- the program goes through the stages of a call. -/
abbrev Goes (C : Contracts) (sourceCount : Nat) {α : Type} (p : Action RunExecutionError α)
    (st : Calling) : Prop :=
  Follows (S := service) (Steps C sourceCount) p (fun _ _ => True) st

theorem goes_bind {α β : Type} {p : Action RunExecutionError α}
    {k : α → Action RunExecutionError β} {st : Calling} (hp : Follows (S := service)
      (Steps C sourceCount) p (fun r st' => ∀ a, r = .ok a → Goes C sourceCount (k a) st') st) :
    Goes C sourceCount (p >>= k) st := by
  refine (follows_bind (S := service) _ _).mpr (hp.imp fun r st' h => ?_)
  cases r with
  | ok a => exact h a rfl
  | error x => trivial

theorem failWith_goes {run : PendingRun} {failure : RunFailure} {st : Calling}
    (h : ∀ m d, Steps C sourceCount st d
      (settle (failRunTx C run.runId run.ownerId failure m) m.fuse d).2 st) :
    Follows (S := service) (Steps C sourceCount) (failWith C run failure) (fun _ st' => st' = st)
      st :=
  (follows_mapError (S := service) _ _).mpr fun m d => ⟨st, h m d, rfl⟩

theorem commitSources_goes {p : Proceeding} {manifestId : Uuid} :
    Goes C sourceCount (commitSources C p.run (p.selection sourceCount).sources manifestId)
      (.recorded p) := by
  unfold commitSources
  split
  · exact (failWith_goes fun m d => ⟨none, .fails⟩).imp fun _ _ _ => trivial
  · next manifest hb =>
    split
    · trivial
    · next request hv =>
      refine goes_bind ((follows_mapError (S := service) _ _).mpr ?_)
      refine (follows_bind (S := service) _ _).mpr ?_
      simp only [checkedRecapRequest, C.recapRequest.roundTrip hv]
      split_ifs with hvalid hann
      · exact fun a h => by cases h
      · exact fun m d => ⟨.recorded p, ⟨_, .commits hb rfl hann⟩, fun _ _ => trivial⟩
      · exact fun a h => by cases h

theorem commit_goes {p : Proceeding} :
    Goes C sourceCount (commit C p.run (p.selection sourceCount).sources
      (p.incomplete sourceCount)) (.recorded p) := by
  unfold commit
  split_ifs
  · exact (failWith_goes fun m d => ⟨none, .fails⟩).imp fun _ _ _ => trivial
  · exact (follows_mapError (S := service) _ _).mpr
      fun m d => ⟨.recorded p, ⟨none, .completes⟩, trivial⟩
  · exact fun m => commitSources_goes

theorem proceed_goes {run : PendingRun} {listed : Db} {outcomes : Outcomes}
    (hw : ∀ seen, (⟨run, listed, outcomes, seen⟩ : Proceeding).Walked) :
    Goes C sourceCount (proceed C sourceCount run listed outcomes) (.listed run listed) := by
  refine follows_read .pause trivial fun m seen => ⟨_, ⟨none, .selects (hw seen)⟩, ?_⟩
  let p : Proceeding := ⟨run, listed, outcomes, seen⟩
  refine goes_bind (follows_change .pause (fun a h => by cases h)
    fun m d => ⟨.recorded p, ⟨_, .records⟩, fun _ _ => ?_⟩)
  exact goes_bind ((commit_goes (p := p)).imp fun _ _ _ => fun _ _ => trivial)

/-- the walks of a call are steps of its stage. -/
theorem acquire_goes {run : PendingRun} {listed : Db} (channels : List (Uuid × String)) :
    Follows (S := service) (Steps C sourceCount) (acquire C run channels)
      (fun r st' => st' = .listed run listed ∧
        ∃ outcomes, r = .ok outcomes ∧ outcomes.map (·.1) = channels.map (·.1))
      (.listed run listed) := by
  let H : Db → Db → Prop := fun d d' => d' = d ∨ WalkStep C d d'
  let env : Unit → (q : Question) → q.Answer → Unit → Prop := fun _ _ _ _ => True
  have w : WalkRule C (fun _ _ => True) H env True fun _ => True := {
    surrounds := ⟨fun _ => trivial, fun _ _ => trivial, fun _ _ _ _ _ => trivial⟩
    other := fun _ _ => trivial
    idle := fun _ => .inl rfl
    step := fun _ h => ⟨.inr h, trivial⟩ }
  have hsafe : Safe (S := service) (fun _ _ => True) env (always H) (acquire C run channels)
      (fun r _ _ => ∃ outcomes, r = .ok outcomes ∧ outcomes.map (·.1) = channels.map (·.1))
      listed () := (acquire_keeps w channels trivial).imp fun r _ _ h => h.2
  refine hsafe.follows (fun _ _ => trivial) fun hH => ?_
  rcases hH with rfl | hH
  · exact .pause _
  · exact ⟨none, .walks hH⟩

theorem acquireRun_goes {run : PendingRun} :
    Goes C sourceCount (acquireRun C sourceCount run) (.picked run) := by
  refine follows_read .pause trivial fun m listed => ⟨.listed run listed, ⟨none, .lists⟩, ?_⟩
  refine goes_bind ((acquire_goes _).imp fun r st' h outcomes hr => ?_)
  obtain ⟨rfl, outcomes', rfl, hmap⟩ := h
  cases hr
  rcases hacq : acquired outcomes with _ | _ | _ | _
  · exact proceed_goes fun seen => ⟨hmap, .inl hacq⟩
  · exact proceed_goes fun seen => ⟨hmap, .inr hacq⟩
  · trivial
  · exact goes_bind ((failWith_goes fun m d => ⟨none, .drops⟩).imp fun _ _ _ => fun _ _ => trivial)

/-- every step of `execute_one` is the next step of its stage. -/
theorem tick_goes : Goes C sourceCount (tick C sourceCount) .idle := by
  refine follows_read .pause trivial fun m d => ?_
  rcases hpick : d.selectPending m.now with _ | run
  · exact ⟨.idle, .pause d, trivial⟩
  · refine ⟨.picked run, ⟨none, .picks hpick⟩, ?_⟩
    dsimp only
    split_ifs
    · refine goes_bind fun m d => ⟨.picked run, ⟨none, .begins⟩, fun begun _ => ?_⟩
      cases begun
      · trivial
      · exact acquireRun_goes
    · exact acquireRun_goes

/-- **Every execution of `execute_one` goes through the stages of a call**, whatever the others do
to the database in between. -/
theorem tick_passes {E : Type} {R : Db → Db → Prop}
    {env : E → (q : Question) → q.Answer → E → Prop} {p : Action RunExecutionError Tick}
    {d d' : Db} {e e' : E}
    (h : Exec (S := service) R env (tick C sourceCount, d, e) (p, d', e')) :
    ∃ st, Passes (S := service) R (Steps C sourceCount) (.idle, d) (st, d') := by
  obtain ⟨st, hst, -⟩ := Follows.exec (c := (tick C sourceCount, d, e)) tick_goes h
  exact ⟨st, hst⟩

end Calling

namespace Settling
variable {C : Contracts}

/-- a step of a settlement, whatever it does. -/
def Steps (C : Contracts) (st : Settling) (d d' : Db) (st' : Settling) : Prop :=
  ∃ act, Moves C st d act d' st'

theorem Steps.pause {st : Settling} (d : Db) : Steps C st d d st := ⟨none, .pauses⟩

/-- every step of `settle_completion` is the next step of its stage. -/
theorem settleCompletion_goes (messageId : Uuid) (completion : C.Bytes) :
    Follows (S := service) (Steps C) (settleCompletion C messageId completion) (fun _ _ => True)
      .idle := by
  unfold settleCompletion
  split
  · trivial
  · next fact _ =>
    split_ifs
    · trivial
    split
    · trivial
    · next analysisId hanalysis =>
      refine follows_read .pause trivial fun m d =>
        ⟨.read fact (d.incompleteFlag fact.digestRunId fact.owner), ⟨_, .reads⟩, ?_⟩
      refine follows_read .pause trivial fun m₁ d₁ => ⟨_, .pause d₁, ?_⟩
      split
      · split_ifs <;> trivial
      · refine follows_read .pause trivial fun m₂ d₂ => ?_
        rcases hdurable : d₂.durable fact.digestRunId fact.owner with _ | durable
        · exact ⟨_, .pause d₂, trivial⟩
        · dsimp only
          by_cases hcons : fact.consistent durable = true
          · refine ⟨_, ⟨none, .checks hdurable hcons⟩, ?_⟩
            rw [hcons]
            exact fun m d => ⟨.ended, ⟨_, .settles hanalysis⟩, trivial⟩
          · refine ⟨_, .pause d₂, ?_⟩
            rw [Bool.eq_false_iff.mpr hcons]
            trivial

/-- **Every execution of `settle_completion` goes through the stages of a settlement.** -/
theorem settleCompletion_passes {E : Type} {R : Db → Db → Prop}
    {env : E → (q : Question) → q.Answer → E → Prop} {messageId : Uuid} {completion : C.Bytes}
    {p : Action CoordinatorError IntakeOutcome} {d d' : Db} {e e' : E}
    (h : Exec (S := service) R env (settleCompletion C messageId completion, d, e) (p, d', e')) :
    ∃ st, Passes (S := service) R (Steps C) (.idle, d) (st, d') := by
  obtain ⟨st, hst, -⟩ := Follows.exec (c := (settleCompletion C messageId completion, d, e))
    (settleCompletion_goes messageId completion) h
  exact ⟨st, hst⟩

end Settling

/-! ## Calls and settlements on one database -/

/-- any number of calls and settlements on one database.  `recorder` is the call that recorded the
completeness of a run last, `committer` the one whose manifest the run has, and `origin` the call
whose record a settlement read. -/
structure Shift where
  db : Db
  calls : Nat → Calling
  settlings : Nat → Settling
  recorder : Uuid → Option (Nat × Proceeding)
  committer : Uuid → Option (Nat × Proceeding × CanonicalManifest)
  origin : Nat → Option (Nat × Proceeding)

/-- the kinds of changes that only calls and settlements make here. -/
def Kind.isShift : Kind → Bool
  | .recorded | .manifest | .completion => true
  | _ => false

namespace Shift
open Function

/-- an empty database, and nobody at work. -/
def initial : Shift where
  db := .empty
  calls _ := .idle
  settlings _ := .idle
  recorder _ := none
  committer _ := none
  origin _ := none

/-- after a step of the call `i`. -/
def called (s : Shift) (i : Nat) (mark : Option Mark) (d : Db) (st : Calling) : Shift :=
  { s with
    db := d
    calls := update s.calls i st
    recorder :=
      match mark with
      | some (.recorded p) => update s.recorder p.run.runId (some (i, p))
      | _ => s.recorder
    committer :=
      match mark with
      | some (.committed p manifest) => update s.committer p.run.runId (some (i, p, manifest))
      | _ => s.committer }

/-- after a step of the settlement `j`. -/
def settled (s : Shift) (j : Nat) (act : Option Act) (d : Db) (st : Settling) : Shift :=
  { s with
    db := d
    settlings := update s.settlings j st
    origin :=
      match act with
      | some (.reads fact) => update s.origin j (s.recorder fact.digestRunId)
      | _ => s.origin }

variable (C : Contracts) (sourceCounts : Nat → Nat)

/-- one step: of a call, whose worker has a source count of its own, of a settlement, or of
anybody else. -/
inductive Step : Shift → Shift → Prop where
  | call {s : Shift} {i mark d st} : Calling.Moves C (sourceCounts i) (s.calls i) s.db mark d st →
      Step s (s.called i mark d st)
  | settlement {s : Shift} {j act d st} : Settling.Moves C (s.settlings j) s.db act d st →
      Step s (s.settled j act d st)
  | other {s : Shift} {k d} : k.isShift = false → Change C (fun _ => True) .many k s.db d →
      Step s { s with db := d }

/-- the shifts that any order of these steps leads to. -/
def Reached (s : Shift) : Prop := Relation.ReflTransGen (Step C sourceCounts) initial s

end Shift

/-! ## What one step does -/

section
variable {C : Contracts} {sourceCount : Nat} {d d' : Db}

/-- the run that a call works on. -/
def Calling.run : Calling → Option PendingRun
  | .idle => none
  | .picked run | .listed run _ => some run
  | .selected p | .recorded p => some p.run

/-- the run of the call is stored. -/
def Calling.Held (st : Calling) (d : Db) : Prop :=
  ∀ run, st.run = some run → d.holdsRun run.runId run.ownerId run.operationId

/-- nothing happened, or a change that no call and no settlement marks. -/
def Unmarked (C : Contracts) (d d' : Db) : Prop :=
  d' = d ∨ ∃ k, k.isShift = false ∧ Change C (fun _ => True) .many k d d'

theorem unmarked_tx {ε α : Type} {t : Sql ε (Fate α)} {fuse : Option Nat}
    (h : t.closes True (fun _ d' => Unmarked C d d') d) : Unmarked C d (settle t fuse d).2 :=
  settle_of_closes fuse (fun _ => trivial) h

theorem selectPending_holds {now : Instant} {run : PendingRun}
    (h : d.selectPending now = some run) :
    d.holdsRun run.runId run.ownerId run.operationId := by
  obtain ⟨r, hr, rfl⟩ := Option.map_eq_some_iff.mp h
  have hmem := (List.mem_insertionSort _).mp (List.mem_of_mem_head? hr)
  exact ⟨r, (List.mem_filter.mp hmem).1, rfl, rfl, rfl⟩

/-- what `commit_manifest` does when it is applied; otherwise it leaves the database as it is. -/
theorem commitManifestTx_marks {manifest : CanonicalManifest} {run : PendingRun} {m : Moment}
    {windowStart windowEnd : Instant} {manifestId : Uuid} {sources : List ManifestSource}
    {r : Except CoordinatorError IntakeOutcome}
    (hb : build C manifestId run.ownerId run.runId windowStart windowEnd sources = .ok manifest)
    (hann : (recapRequest run manifest).announces manifest = true)
    (howned : d.holdsRun run.runId run.ownerId run.operationId)
    (hset : settle (commitManifestTx manifest (recapRequest run manifest) m) m.fuse d = (r, d')) :
    (wasApplied r = true ∧ ManifestCommitted m d d' C manifest (recapRequest run manifest)) ∨
      (wasApplied r = false ∧ d' = d) := by
  have built := build_ok hb
  have hclose : (commitManifestTx manifest (recapRequest run manifest) m).closes True
      (fun r d' => (wasApplied r = true ∧
        ManifestCommitted m d d' C manifest (recapRequest run manifest)) ∨
          (wasApplied r = false ∧ d' = d)) d := by
    refine commitManifestTx_closes ?_ ?_ hann (fun x => .inr ⟨rfl, rfl⟩)
      (fun _ => .inr ⟨rfl, rfl⟩) fun d' h => .inl ⟨rfl, h⟩
    · rw [built.manifestId_eq, built.ownerId_eq, built.runId_eq]
      exact ⟨_, _, _, hb⟩
    · rw [built.runId_eq, built.ownerId_eq]
      exact howned
  have h := settle_of_closes m.fuse (fun _ => trivial) hclose
  rwa [hset] at h

/-- what `settle_completion` does when it is applied; otherwise it leaves the database as it is. -/
theorem settleCompletionTx_acts {fact : RecapCompleted} {analysisId messageId : Uuid} {sha : Digest}
    {incomplete : Bool} {m : Moment} {r : Except CoordinatorError IntakeOutcome}
    (hev : d.evidence fact.digestRunId fact.owner fact.manifestDigest fact.countsAgree)
    (hset : settle (settleCompletionTx C fact analysisId messageId sha incomplete m) m.fuse d =
      (r, d')) :
    (wasApplied r = true ∧ ∃ run manifest,
      CompletionSettled m d d' fact analysisId messageId sha incomplete run manifest) ∨
      (wasApplied r = false ∧ d' = d) := by
  have hclose : (settleCompletionTx C fact analysisId messageId sha incomplete m).closes True
      (fun r d' => (wasApplied r = true ∧ ∃ run manifest,
        CompletionSettled m d d' fact analysisId messageId sha incomplete run manifest) ∨
          (wasApplied r = false ∧ d' = d)) d :=
    settleCompletionTx_closes hev (fun x => .inr ⟨rfl, rfl⟩) (fun _ => .inr ⟨rfl, rfl⟩)
      fun d' run manifest h => .inl ⟨rfl, run, manifest, h⟩
  have h := settle_of_closes m.fuse (fun _ => trivial) hclose
  rwa [hset] at h

/-- what a step of a call leaves: nothing for others, a recorded completeness, or a manifest. -/
inductive Calling.Effect (C : Contracts) (sourceCount : Nat) :
    Calling → Db → Option Mark → Db → Prop where
  | unmarked {st d d'} : Unmarked C d d' → Effect C sourceCount st d none d'
  | recorded {p d} : Effect C sourceCount (.selected p) d (some (.recorded p))
      (d.record p.run.runId (p.incomplete sourceCount))
  | committed {p : Proceeding} {d d' m manifest manifestId} :
      build C manifestId p.run.ownerId p.run.runId p.run.windowStart p.run.windowEnd
        (p.selection sourceCount).sources = .ok manifest →
      ManifestCommitted m d d' C manifest (recapRequest p.run manifest) →
      Effect C sourceCount (.recorded p) d (some (.committed p manifest)) d'

/-- **What one step of a call does**, and that it works on a stored run. -/
theorem Calling.Moves.effect {st st' : Calling} {mark : Option Mark}
    (h : Calling.Moves C sourceCount st d mark d' st') (hst : st.Held d) :
    Calling.Effect C sourceCount st d mark d' ∧ st'.Held d := by
  have failed : ∀ {runId ownerId : Uuid} {failure : RunFailure} {m : Moment},
      Unmarked C d (settle (failRunTx C runId ownerId failure m) m.fuse d).2 :=
    unmarked_tx (failRunTx_closes (fun _ => .inl rfl)
      fun _ h => .inr ⟨.failed, rfl, .failed h⟩)
  cases h with
  | pauses => exact ⟨.unmarked (.inl rfl), hst⟩
  | picks hpick =>
    refine ⟨.unmarked (.inl rfl), fun run hrun => ?_⟩
    cases hrun
    exact selectPending_holds hpick
  | begins =>
    exact ⟨.unmarked (unmarked_tx (beginAcquisitionTx_closes (fun _ => .inl rfl) (fun _ => .inl rfl)
      fun _ h => .inr ⟨.acquiring, rfl, .acquiring h⟩)), hst⟩
  | lists => exact ⟨.unmarked (.inl rfl), hst⟩
  | walks hwalk =>
    refine ⟨.unmarked (.inr ?_), hst⟩
    cases hwalk with
    | lease row => exact ⟨.lease, rfl, .lease⟩
    | append o revisionId h => exact ⟨.append, rfl, .append h⟩
    | withdrawal channelId g now =>
      exact ⟨.withdrawal, rfl, .withdrawal⟩
  | drops => exact ⟨.unmarked failed, hst⟩
  | selects _ => exact ⟨.unmarked (.inl rfl), hst⟩
  | records => exact ⟨.recorded, hst⟩
  | fails => exact ⟨.unmarked failed, hst⟩
  | completes =>
    exact ⟨.unmarked (unmarked_tx (completeEmptyRunTx_closes (fun _ => .inl rfl)
      fun _ h => .inr ⟨.empty, rfl, .empty h⟩)), hst⟩
  | @commits p _ m manifest manifestId request hb hreq hann =>
    subst hreq
    refine ⟨?_, hst⟩
    rcases hset : settle (commitManifestTx manifest (recapRequest p.run manifest) m) m.fuse d
      with ⟨r, d'⟩
    rcases commitManifestTx_marks hb hann (hst _ rfl) hset with ⟨happ, hc⟩ | ⟨happ, rfl⟩
    · simp only [happ, if_true]
      exact .committed hb hc
    · simp only [happ, Bool.false_eq_true, if_false]
      exact .unmarked (.inl rfl)

end

/-! ## What holds of every shift -/

/-- what a settlement read is what the call `origin` recorded, if the run is of the owner that the
fact names. -/
def ReadFrom (sourceCounts : Nat → Nat) (origin : Option (Nat × Proceeding)) (d : Db)
    (fact : RecapCompleted) (incomplete : Bool) : Prop :=
  ∀ i p, origin = some (i, p) → ∃ r ∈ d.runs, r.runId = fact.digestRunId ∧
    (r.ownerId = fact.owner → incomplete = p.incomplete (sourceCounts i))

/-- what a settlement knows at its stage. -/
def Settling.Stands (sourceCounts : Nat → Nat) (origin : Option (Nat × Proceeding)) (d : Db) :
    Settling → Prop
  | .read fact incomplete => ReadFrom sourceCounts origin d fact incomplete
  | .checked fact incomplete => ReadFrom sourceCounts origin d fact incomplete ∧
      d.evidence fact.digestRunId fact.owner fact.manifestDigest fact.countsAgree
  | _ => True

/-- the run has the manifest. -/
def Db.holdsManifest (d : Db) (runId : Uuid) (manifest : CanonicalManifest) : Prop :=
  ∃ row ∈ d.manifests, row.runId = runId ∧ row.manifestId = manifest.manifestId ∧
    row.sha256 = manifest.sha256

/-- the manifest is built from what the call selected. -/
def Proceeding.Builds (C : Contracts) (sourceCount : Nat) (p : Proceeding)
    (manifest : CanonicalManifest) : Prop :=
  ∃ manifestId, build C manifestId p.run.ownerId p.run.runId p.run.windowStart p.run.windowEnd
    (p.selection sourceCount).sources = .ok manifest

/-- what any change keeps. -/
structure Carried (d d' : Db) : Prop where
  keyed : d'.Keyed
  run : ∀ r ∈ d.runs, ∃ r' ∈ d'.runs, r'.runId = r.runId ∧ r'.ownerId = r.ownerId ∧
    r'.operationId = r.operationId
  manifest : ∀ m ∈ d.manifests, ∃ m' ∈ d'.manifests, ManifestMoves m m'

section
variable {C : Contracts} {sourceCounts : Nat → Nat} {d d' : Db}

theorem carried_of_change {k : Kind} (h : Change C (fun _ => True) .many k d d') (hd : d.Keyed) :
    Carried d d' where
  keyed := h.keyed hd
  run r hr := by
    obtain ⟨r', hr', hm⟩ := h.run_kept hd.runs hr
    exact ⟨r', hr', hm.runId, hm.ownerId, hm.operationId⟩
  manifest _ hm := h.manifest_kept hm

namespace Carried
variable (c : Carried d d')
include c

theorem held {st : Calling} (h : st.Held d) : st.Held d' := by
  intro run hrun
  obtain ⟨r, hr, h1, h2, h3⟩ := h run hrun
  obtain ⟨r', hr', e1, e2, e3⟩ := c.run r hr
  exact ⟨r', hr', e1.trans h1, e2.trans h2, e3.trans h3⟩

theorem readFrom {origin : Option (Nat × Proceeding)} {fact : RecapCompleted} {incomplete : Bool}
    (h : ReadFrom sourceCounts origin d fact incomplete) :
    ReadFrom sourceCounts origin d' fact incomplete := by
  intro i p hi
  obtain ⟨r, hr, h1, h2⟩ := h i p hi
  obtain ⟨r', hr', e1, e2, -⟩ := c.run r hr
  exact ⟨r', hr', e1.trans h1, fun ho => h2 (e2.symm.trans ho)⟩

theorem stands {origin : Option (Nat × Proceeding)} {st : Settling}
    (h : st.Stands sourceCounts origin d) : st.Stands sourceCounts origin d' := by
  cases st with
  | read fact incomplete => exact c.readFrom h
  | checked fact incomplete =>
    obtain ⟨hread, m, hm, h1, h2, h3, h4⟩ := h
    obtain ⟨m', hm', hmove⟩ := c.manifest m hm
    exact ⟨c.readFrom hread, m', hm', hmove.runId.trans h1, hmove.ownerId.trans h2,
      hmove.sha256.trans h3, RecapCompleted.countsAgree_moves hmove h4⟩
  | _ => trivial

theorem holdsManifest {runId : Uuid} {manifest : CanonicalManifest}
    (h : d.holdsManifest runId manifest) : d'.holdsManifest runId manifest := by
  obtain ⟨row, hrow, h1, h2, h3⟩ := h
  obtain ⟨row', hrow', hm⟩ := c.manifest row hrow
  exact ⟨row', hrow', hm.runId.trans h1, hm.manifestId.trans h2, hm.sha256.trans h3⟩

end Carried

end

namespace Shift
open Function
variable {C : Contracts} {sourceCounts : Nat → Nat} {s s' : Shift} {d : Db} {i j : Nat}

/-- what calls and settlements left stands in the database. -/
structure Sound (C : Contracts) (sourceCounts : Nat → Nat) (s : Shift) : Prop where
  keyed : s.db.Keyed
  held : ∀ i, (s.calls i).Held s.db
  settlings : ∀ j, (s.settlings j).Stands sourceCounts (s.origin j) s.db
  recorder : ∀ runId i p, s.recorder runId = some (i, p) → ∃ r ∈ s.db.runs, r.runId = runId ∧
    r.acquisitionIncomplete = p.incomplete (sourceCounts i)
  committer : ∀ runId i p manifest, s.committer runId = some (i, p, manifest) →
    p.Builds C (sourceCounts i) manifest ∧ s.db.holdsManifest runId manifest
  manifests : ∀ row ∈ s.db.manifests, ∃ x, s.committer row.runId = some x

theorem sound_initial : Sound C sourceCounts initial where
  keyed := .empty
  held _ _ h := by cases h
  settlings _ := trivial
  recorder _ _ _ h := by cases h
  committer _ _ _ _ h := by cases h
  manifests _ h := by cases h

/-- a change that neither records a completeness nor commits a manifest keeps what was left. -/
theorem Sound.change (h : Sound C sourceCounts s) {k : Kind}
    (hc : Change C (fun _ => True) .many k s.db d) (hr : k ≠ .recorded) (hm : k ≠ .manifest) :
    Sound C sourceCounts { s with db := d } := by
  have c := carried_of_change hc h.keyed
  refine ⟨c.keyed, fun i => c.held (h.held i), fun j => c.stands (h.settlings j),
    fun runId i p hi => ?_, fun runId i p manifest hi => ?_, fun row hrow => ?_⟩
  · obtain ⟨r, hmem, h1, h2⟩ := h.recorder runId i p hi
    obtain ⟨r', hmem', hmove⟩ := hc.run_kept h.keyed.runs hmem
    exact ⟨r', hmem', hmove.runId.trans h1, (hmove.flag hr).trans h2⟩
  · exact (h.committer runId i p manifest hi).imp id c.holdsManifest
  · rcases hc.manifests with ⟨-, u, hd', hu⟩ | ⟨hk, -⟩
    · rw [show d.manifests = s.db.manifests.map u from hd'] at hrow
      obtain ⟨m, hmem, rfl⟩ := List.mem_map.mp hrow
      rw [(hu m).runId]
      exact h.manifests m hmem
    · exact absurd hk hm

theorem Sound.unmarked (h : Sound C sourceCounts s) (hc : Unmarked C s.db d) :
    Sound C sourceCounts { s with db := d } := by
  rcases hc with rfl | ⟨k, hk, hc⟩
  · exact h
  · exact h.change hc (by rintro rfl; cases hk) (by rintro rfl; cases hk)

/-- a call records the completeness of its run. -/
theorem Sound.record (h : Sound C sourceCounts s) {p : Proceeding}
    (hp : (Calling.recorded p).Held s.db) :
    Sound C sourceCounts { s with
      db := s.db.record p.run.runId (p.incomplete (sourceCounts i))
      recorder := update s.recorder p.run.runId (some (i, p)) } := by
  have hc : Change C (fun _ => True) .many .recorded s.db
      (s.db.record p.run.runId (p.incomplete (sourceCounts i))) :=
    .recorded (by decide) fun hw => absurd rfl hw
  have c := carried_of_change hc h.keyed
  have hmem : ∀ r ∈ s.db.runs, (if r.runId = p.run.runId
      then { r with acquisitionIncomplete := p.incomplete (sourceCounts i) } else r) ∈
        (s.db.record p.run.runId (p.incomplete (sourceCounts i))).runs := by
    intro r hr
    refine mem_updateWhere.mpr ⟨r, hr, ?_⟩
    by_cases hid : r.runId = p.run.runId <;> simp [hid]
  refine ⟨c.keyed, fun i => c.held (h.held i), fun j => c.stands (h.settlings j),
    fun runId i' p' hi => ?_, h.committer, h.manifests⟩
  by_cases hid : runId = p.run.runId
  · subst hid
    obtain ⟨rfl, rfl⟩ : i = i' ∧ p = p' := by simpa using hi
    obtain ⟨r, hr, h1, -, -⟩ := hp p.run rfl
    have := hmem r hr
    rw [if_pos h1] at this
    exact ⟨_, this, h1, rfl⟩
  · dsimp only at hi
    rw [update_of_ne hid] at hi
    obtain ⟨r, hr, h1, h2⟩ := h.recorder runId i' p' hi
    have := hmem r hr
    rw [if_neg (by rw [h1]; exact hid)] at this
    exact ⟨r, this, h1, h2⟩

/-- a call commits the manifest of its run. -/
theorem Sound.commit (h : Sound C sourceCounts s) {p : Proceeding} {m : Moment}
    {manifest : CanonicalManifest} (hb : p.Builds C (sourceCounts i) manifest)
    (hm : ManifestCommitted m s.db d C manifest (recapRequest p.run manifest)) :
    Sound C sourceCounts { s with
      db := d
      committer := update s.committer p.run.runId (some (i, p, manifest)) } := by
  have hc : Change C (fun _ => True) .many .manifest s.db d := .manifest hm fun hw => absurd rfl hw
  have c := carried_of_change hc h.keyed
  obtain ⟨manifestId, hbuild⟩ := hb
  have hrun : manifest.runId = p.run.runId := (build_ok hbuild).runId_eq
  have hrows : d.manifests = s.db.manifests ++ [manifest.row m.now] := by rw [hm.effect]
  refine ⟨c.keyed, fun i => c.held (h.held i), fun j => c.stands (h.settlings j),
    fun runId i' p' hi => ?_, fun runId i' p' manifest' hi => ?_, fun row hrow => ?_⟩
  · obtain ⟨r, hmem, h1, h2⟩ := h.recorder runId i' p' hi
    obtain ⟨r', hmem', hmove⟩ := hc.run_kept h.keyed.runs hmem
    exact ⟨r', hmem', hmove.runId.trans h1, (hmove.flag (by decide)).trans h2⟩
  · by_cases hid : runId = p.run.runId
    · subst hid
      obtain ⟨rfl, rfl, rfl⟩ : i = i' ∧ p = p' ∧ manifest = manifest' := by simpa using hi
      refine ⟨⟨manifestId, hbuild⟩, manifest.row m.now, ?_, hrun, rfl, rfl⟩
      show _ ∈ d.manifests
      simp [hrows]
    · dsimp only at hi
      rw [update_of_ne hid] at hi
      exact (h.committer runId i' p' manifest' hi).imp id c.holdsManifest
  · rw [show Db.manifests _ = _ from hrows] at hrow
    by_cases hid : row.runId = p.run.runId
    · rw [hid]
      exact ⟨_, update_self _ _ _⟩
    · rcases List.mem_append.mp hrow with hrow | hrow
      · obtain ⟨x, hx⟩ := h.manifests row hrow
        exact ⟨x, (update_of_ne hid _ _).trans hx⟩
      · obtain rfl := List.mem_singleton.mp hrow
        exact absurd hrun hid

/-- a call goes on to a stage whose run is stored. -/
theorem Sound.stage (h : Sound C sourceCounts s) {st : Calling} (hst : st.Held s.db) :
    Sound C sourceCounts { s with calls := update s.calls i st } := by
  refine ⟨h.keyed, fun i' => ?_, h.settlings, h.recorder, h.committer, h.manifests⟩
  by_cases hi : i' = i
  · subst hi
    dsimp only
    rwa [update_self]
  · dsimp only
    rw [update_of_ne hi]
    exact h.held i'

theorem Sound.call (h : Sound C sourceCounts s) {mark : Option Mark} {st : Calling}
    (hm : Calling.Moves C (sourceCounts i) (s.calls i) s.db mark d st) :
    Sound C sourceCounts (s.called i mark d st) := by
  obtain ⟨heffect, hst⟩ := hm.effect (h.held i)
  have hstage := h.stage (i := i) hst
  have hheld := h.held i
  generalize s.calls i = before at heffect hheld
  cases heffect with
  | unmarked hu => exact hstage.unmarked hu
  | recorded => exact hstage.record hheld
  | committed hb hc => exact hstage.commit ⟨_, hb⟩ hc

/-- a settlement goes on to a stage that stands. -/
theorem Sound.seat (h : Sound C sourceCounts s) {st : Settling} {o : Option (Nat × Proceeding)}
    (hst : st.Stands sourceCounts o s.db) :
    Sound C sourceCounts { s with
      settlings := update s.settlings j st
      origin := update s.origin j o } := by
  refine ⟨h.keyed, h.held, fun j' => ?_, h.recorder, h.committer, h.manifests⟩
  by_cases hj : j' = j
  · subst hj
    dsimp only
    rwa [update_self, update_self]
  · dsimp only
    rw [update_of_ne hj, update_of_ne hj]
    exact h.settlings j'

theorem Sound.seated (h : Sound C sourceCounts s) {st : Settling}
    (hst : st.Stands sourceCounts (s.origin j) s.db) :
    Sound C sourceCounts { s with settlings := update s.settlings j st } := by
  have := h.seat (j := j) hst
  rwa [update_eq_self] at this

/-- the completeness that is read is the one that was recorded last. -/
theorem Sound.readFrom (h : Sound C sourceCounts s) (fact : RecapCompleted) :
    ReadFrom sourceCounts (s.recorder fact.digestRunId) s.db fact
      (s.db.incompleteFlag fact.digestRunId fact.owner) := by
  intro i p hi
  obtain ⟨r, hr, h1, h2⟩ := h.recorder fact.digestRunId i p hi
  refine ⟨r, hr, h1, fun ho => ?_⟩
  rw [Db.incompleteFlag, ← h1, ← ho, h.keyed.ownRun hr]
  exact h2

theorem Sound.settlement (h : Sound C sourceCounts s) {act : Option Act} {st : Settling}
    (hm : Settling.Moves C (s.settlings j) s.db act d st) :
    Sound C sourceCounts (s.settled j act d st) := by
  have hstands := h.settlings j
  generalize hbefore : s.settlings j = before at hm hstands
  cases hm with
  | pauses => exact h.seated hstands
  | @reads fact => exact h.seat (h.readFrom fact)
  | @checks fact incomplete _ durable hdurable hcons =>
    refine h.seated ⟨hstands, ?_⟩
    obtain ⟨-, m, hm, e1, e2, -, rfl⟩ := durable_evidence hdurable
    simp only [RecapCompleted.consistent, Bool.and_eq_true, decide_eq_true_eq] at hcons
    exact ⟨durable.2, hm, e1, e2, hcons.1.1.2.symm, hcons.1.2, hcons.2⟩
  | @settles fact incomplete _ m analysisId messageId sha hanalysis =>
    rcases hset : settle (settleCompletionTx C fact analysisId messageId sha incomplete m) m.fuse
      s.db with ⟨r, d⟩
    have hended : Sound C sourceCounts { s with settlings := update s.settlings j .ended } :=
      h.seated trivial
    rcases settleCompletionTx_acts hstands.2 hset with ⟨happ, run, manifest, hc⟩ | ⟨happ, rfl⟩
    · simp only [happ, if_true]
      exact hended.change (.completion trivial hanalysis hc fun h => by cases h) (by decide)
        (by decide)
    · simp only [happ, Bool.false_eq_true, if_false]
      exact hended

/-- **Every step keeps what calls and settlements left.** -/
theorem Sound.step (h : Sound C sourceCounts s) (hs : Step C sourceCounts s s') :
    Sound C sourceCounts s' := by
  cases hs with
  | call hm => exact h.call hm
  | settlement hm => exact h.settlement hm
  | other hk hc => exact h.unmarked (.inr ⟨_, hk, hc⟩)

theorem Reached.sound (h : Reached C sourceCounts s) : Sound C sourceCounts s := by
  induction h with
  | refl => exact sound_initial
  | tail _ hs ih => exact ih.step hs

/-! ## Settlements -/

/-- the call whose record the settlement read is the call that committed the manifest. -/
def Undisturbed (s : Shift) (j : Nat) (fact : RecapCompleted) : Prop :=
  s.origin j = (s.committer fact.digestRunId).map fun x => (x.1, x.2.1)

/-- a settlement that leaves `d` uses the completeness of the call whose selection is in the
committed manifest, and a run that was not read completely does not end completed. -/
def Faithful (C : Contracts) (sourceCounts : Nat → Nat) (s : Shift) (fact : RecapCompleted)
    (incomplete : Bool) (d : Db) : Prop :=
  ∃ i p manifest, s.committer fact.digestRunId = some (i, p, manifest) ∧
    p.Builds C (sourceCounts i) manifest ∧ s.db.holdsManifest fact.digestRunId manifest ∧
    incomplete = p.incomplete (sourceCounts i) ∧
    (p.incomplete (sourceCounts i) = true →
      ∀ r ∈ d.runs, r.runId = fact.digestRunId → r.state ≠ .completed)

theorem completionOutcome_incomplete (omitted : Nat) :
    (completionOutcome omitted true).state ≠ .completed := by
  simp [completionOutcome, Outcome.state]

/-- the run that a completion settles ends with its outcome. -/
theorem settled_state {m : Moment} {fact : RecapCompleted} {analysisId messageId : Uuid}
    {sha : Digest} {incomplete : Bool} {run : Run} {manifest : Manifest} {d d' : Db}
    (hc : CompletionSettled m d d' fact analysisId messageId sha incomplete run manifest)
    (hd : d.Keyed) (hd' : d'.Keyed) :
    ∀ r ∈ d'.runs, r.runId = fact.digestRunId →
      r.state = (completionOutcome fact.omittedCount incomplete).state := by
  intro r hr hid
  obtain ⟨⟨r', hr', h1, -, h3⟩, -, -⟩ := hc.settled hd
  obtain rfl := hd'.runs.eq hr hr' (hid.trans h1.symm)
  exact h3

/-- **A settlement that read the record of the committing call uses its completeness**, in every
order of the steps of any number of calls, settlements and others. -/
theorem undisturbed_settlements (h : Reached C sourceCounts s) {fact : RecapCompleted}
    {incomplete : Bool} {st : Settling}
    (hm : Settling.Moves C (s.settlings j) s.db (some (.settles fact incomplete)) d st)
    (ho : s.Undisturbed j fact) : s.Faithful C sourceCounts fact incomplete d := by
  have hsound := h.sound
  have hstands := hsound.settlings j
  generalize s.settlings j = before at hm hstands
  generalize hact : some (Act.settles fact incomplete) = act at hm
  cases hm with
  | pauses => cases hact
  | reads => cases hact
  | checks => cases hact
  | @settles fact' incomplete' _ m analysisId messageId sha hanalysis =>
    rcases hset : settle (settleCompletionTx C fact' analysisId messageId sha incomplete' m) m.fuse
      s.db with ⟨r, d⟩
    rw [hset] at hact
    rcases settleCompletionTx_acts hstands.2 hset with ⟨happ, run, manifest, hc⟩ | ⟨happ, -⟩
    · simp only [happ, if_true, Option.some.injEq, Act.settles.injEq] at hact
      obtain ⟨rfl, rfl⟩ := hact
      obtain ⟨hrun, hrunId, howner⟩ := ownRun_some hc.run_eq
      obtain ⟨hrow, hrowRun⟩ := manifestOf_some hc.manifest_eq
      obtain ⟨⟨i, p, built⟩, hcommitter⟩ := hsound.manifests manifest hrow
      rw [hrowRun, hrunId] at hcommitter
      obtain ⟨hb, hholds⟩ := hsound.committer _ _ _ _ hcommitter
      -- the run that is settled is the one whose completeness was read.
      have hflag : incomplete = p.incomplete (sourceCounts i) := by
        have hi : s.origin j = some (i, p) := by rw [ho, hcommitter]; rfl
        obtain ⟨r, hr, h1, h2⟩ := hstands.1 i p hi
        obtain rfl := hsound.keyed.runs.eq hr hrun (h1.trans hrunId.symm)
        exact h2 howner
      refine ⟨i, p, built, hcommitter, hb, hholds, hflag, fun hp r hr hid => ?_⟩
      have hchange : Change C (fun _ => True) .many .completion s.db d :=
        .completion trivial hanalysis hc fun h => by cases h
      rw [settled_state hc hsound.keyed (hchange.keyed hsound.keyed) r hr hid, hflag, hp]
      exact completionOutcome_incomplete _
    · simp [happ] at hact

end Shift

/-! ## Two calls on one run -/

namespace Sample

/-- a moment at which no statement is lost. -/
def turn (now : Instant) (base : Nat) : Moment := ⟨now, fun k => base + k, none⟩

/-- the owner has subscribed to the channel, has asked for a digest, and a post is stored. -/
def enrolled : Db :=
  { Db.empty with
    channels := [⟨1991, "rustlang", none⟩]
    subscriptions := [⟨1990, 7, 1991, 1, true⟩]
    inbox := [.handled 101 .subscription (.text "subscribe") 0 1]
    outbox := [(subscriptionReport subscribe 101).outboxRow 1992 1] }

def asked : Db :=
  { enrolled with
    runs := [request.run 2]
    inbox := enrolled.inbox ++ [.handled 102 .run (.text "digest") 0 2]
    outbox := enrolled.outbox ++ [(queuedReport request 102).outboxRow 2000 2] }

def post : ObservedRevision := ⟨1991, 5, "hello", "https://t.me/rustlang/5", 1000000, 3⟩

def posted : Db := { asked with revisions := [post.row 3890 (textDigest "hello")] }

def taken : PendingRun := ⟨50, 7, 0, 1000000000, .ru, .accepted, 12⟩

/-- the old worker reads the channel in part. -/
def shortCall : Proceeding := ⟨taken, posted, [(1991, .ok ⟨1, 1, true⟩)], posted⟩

/-- the new worker reads the whole channel. -/
def wholeCall : Proceeding := ⟨taken, posted, [(1991, .ok ⟨1, 1, false⟩)], posted⟩

/-- the manifest of the post, which both calls select. -/
def chosen : CanonicalManifest :=
  ⟨3770, 7, 50, "manifest", textDigest "manifest", 1, 1, [(1991, 5)]⟩

/-- the old worker commits. -/
def commitFrom (d : Db) : Except CoordinatorError IntakeOutcome × Db :=
  settle (commitManifestTx chosen (recapRequest taken chosen) (turn 4 4000)) (turn 4 4000).fuse d

/-- the recap is settled by the completeness that is recorded. -/
def settleFrom (d : Db) : Except CoordinatorError IntakeOutcome × Db :=
  settle (settleCompletionTx contracts fact 71 103 0 (d.incompleteFlag 50 7) (turn 5 5000))
    (turn 5 5000).fuse d

/-- both calls have selected. -/
def selectedTwice : Shift :=
  ((((((({ Shift.initial with db := posted } : Shift).called 0 none posted (.picked taken)).called 1
    none posted (.picked taken)).called 0 none posted (.listed taken posted)).called 1 none posted
      (.listed taken posted)).called 0 none posted (.selected shortCall)).called 1 none posted
        (.selected wholeCall))

theorem posted_reached :
    Shift.Reached contracts (fun _ => 10) { Shift.initial with db := posted } := by
  have hset : ∀ inbox,
      ({ Db.empty with inbox } : Db).setSubscription 1990 1991 7 "rustlang" true 1 =
        .row ⟨1990, 7, 1991, 1, true⟩ { enrolled with inbox, outbox := [] } := by
    intro inbox
    rfl
  have h₁ : Change contracts (fun _ => True) .many .subscription Db.empty enrolled :=
    .subscription (m := turn 1 1990) (c := subscribe) trivial
      ⟨rfl, _, _, enrolled.outbox, hset _, .inr ⟨rfl, by simp [Db.empty], by simp [Db.empty]⟩, rfl⟩
  have h₂ : Change contracts (fun _ => True) .many .run enrolled asked :=
    .created (m := turn 2 2000) (c := request) trivial
      ⟨rfl, by decide, by simp [enrolled, Db.empty], by simp [enrolled, Db.empty], asked.outbox,
        .inr ⟨rfl, by decide +kernel, by decide +kernel⟩, rfl⟩
  have hpost : asked.appendRevision (post.row 3890 (contracts.textDigest post.body)) =
      some posted := by decide +kernel
  have r₁ : Shift.Reached contracts (fun _ => 10) { Shift.initial with db := enrolled } :=
    Relation.ReflTransGen.refl.tail (.other rfl h₁)
  have r₂ : Shift.Reached contracts (fun _ => 10) { Shift.initial with db := asked } :=
    r₁.tail (.other rfl h₂)
  exact r₂.tail (.other rfl (.append hpost))

theorem selectedTwice_reached : Shift.Reached contracts (fun _ => 10) selectedTwice := by
  have hpick : posted.selectPending 3 = some taken := by decide +kernel
  have hshort : shortCall.Walked := ⟨by decide +kernel, .inr (by decide +kernel)⟩
  have hwhole : wholeCall.Walked := ⟨by decide +kernel, .inl (by decide +kernel)⟩
  have r₁ := posted_reached.tail (.call (i := 0) (.picks hpick))
  have r₂ := r₁.tail (.call (i := 1) (.picks hpick))
  have r₃ := r₂.tail (.call (i := 0) .lists)
  have r₄ := r₃.tail (.call (i := 1) .lists)
  have r₅ := r₄.tail (.call (i := 0) (.selects hshort))
  exact r₅.tail (.call (i := 1) (.selects hwhole))

/-- the old worker has recorded. -/
def recordedOnce : Shift :=
  selectedTwice.called 0 (some (.recorded shortCall)) (posted.record 50 (shortCall.incomplete 10))
    (.recorded shortCall)

/-- and the new worker has recorded after it. -/
def recordedTwice : Shift :=
  recordedOnce.called 1 (some (.recorded wholeCall))
    (recordedOnce.db.record 50 (wholeCall.incomplete 10)) (.recorded wholeCall)

theorem recordedOnce_reached : Shift.Reached contracts (fun _ => 10) recordedOnce :=
  selectedTwice_reached.tail (.call (i := 0) .records)

theorem recordedTwice_reached : Shift.Reached contracts (fun _ => 10) recordedTwice :=
  recordedOnce_reached.tail (.call (i := 1) .records)

/-- the old worker commits, and the completion reads the record and passes its checks. -/
def checked (s : Shift) : Shift :=
  (((s.called 0 (some (.committed shortCall chosen)) (commitFrom s.db).2
    (.recorded shortCall)).settled 0 (some (.reads fact)) (commitFrom s.db).2
      (.read fact ((commitFrom s.db).2.incompleteFlag 50 7))).settled 0 none (commitFrom s.db).2
        (.checked fact ((commitFrom s.db).2.incompleteFlag 50 7)))

/-- the run that waits for its recap, and its manifest. -/
def durable (incomplete : Bool) : Run × Manifest :=
  ({ request.run 2 with
      state := .waitingRecap
      acquisitionIncomplete := incomplete
      updatedAt := 4 }, chosen.row 4)

theorem checked_reached {s : Shift} (h : Shift.Reached contracts (fun _ => 10) s)
    (hcall : s.calls 0 = .recorded shortCall) (hidle : s.settlings 0 = .idle)
    (happ : wasApplied (commitFrom s.db).1 = true) {incomplete : Bool}
    (hdurable : (commitFrom s.db).2.durable 50 7 = some (durable incomplete)) :
    Shift.Reached contracts (fun _ => 10) (checked s) := by
  have hcommit : Calling.Moves contracts 10 (s.calls 0) s.db
      (if wasApplied (commitFrom s.db).1 then some (.committed shortCall chosen) else none)
      (commitFrom s.db).2 (.recorded shortCall) := by
    rw [hcall]
    exact .commits (show build contracts 3770 _ _ _ _ _ = .ok chosen by decide +kernel) rfl
      (by decide +kernel)
  rw [if_pos happ] at hcommit
  have hread : Settling.Moves contracts (s.settlings 0) (commitFrom s.db).2 (some (.reads fact))
      (commitFrom s.db).2 (.read fact ((commitFrom s.db).2.incompleteFlag 50 7)) := by
    rw [hidle]
    exact .reads
  have r₁ := h.tail (.call (i := 0) hcommit)
  have r₂ := r₁.tail (.settlement (j := 0) hread)
  exact r₂.tail (.settlement (j := 0) (.checks hdurable rfl))

/-- the settlement that is applied. -/
theorem checked_settles {s : Shift} (happ : wasApplied (settleFrom (commitFrom s.db).2).1 = true) :
    Settling.Moves contracts ((checked s).settlings 0) (checked s).db
      (some (.settles fact ((commitFrom s.db).2.incompleteFlag 50 7)))
      (settleFrom (commitFrom s.db).2).2 .ended := by
  have hsettle : Settling.Moves contracts
      (.checked fact ((commitFrom s.db).2.incompleteFlag 50 7)) (commitFrom s.db).2
      (if wasApplied (settleFrom (commitFrom s.db).2).1
        then some (.settles fact ((commitFrom s.db).2.incompleteFlag 50 7)) else none)
      (settleFrom (commitFrom s.db).2).2 .ended := .settles rfl
  rwa [if_pos happ] at hsettle

end Sample

/-- the old worker commits what it read in part after the new worker recorded a whole reading: the
run ends completed. -/
theorem overlapping_record_misleads :
    (Sample.settleFrom (Sample.commitFrom Sample.recordedTwice.db).2).2.runs.map (·.state) =
      [.completed] ∧
    ¬ ∀ (s : Shift) (j : Nat) (fact : RecapCompleted) (incomplete : Bool) (d : Db) (st : Settling),
      Shift.Reached Sample.contracts (fun _ => 10) s →
      Settling.Moves Sample.contracts (s.settlings j) s.db (some (.settles fact incomplete)) d st →
      s.Faithful Sample.contracts (fun _ => 10) fact incomplete d := by
  refine ⟨by decide +kernel, fun h => ?_⟩
  have hdurable : (Sample.commitFrom Sample.recordedTwice.db).2.durable 50 7 =
      some (Sample.durable false) := by decide +kernel
  have hreached := Sample.checked_reached Sample.recordedTwice_reached rfl rfl (by decide +kernel)
    hdurable
  obtain ⟨i, p, manifest, hcommitter, -, -, hflag, -⟩ :=
    h (Sample.checked Sample.recordedTwice) 0 _ _ _ _ hreached
      (Sample.checked_settles (by decide +kernel))
  have hp : some (0, Sample.shortCall, Sample.chosen) = some (i, p, manifest) := hcommitter
  simp only [Option.some.injEq, Prod.mk.injEq] at hp
  obtain ⟨rfl, rfl, rfl⟩ := hp
  revert hflag
  decide +kernel

/-- when the old worker alone records and commits, the run ends partial. -/
theorem single_record_settles :
    (Sample.settleFrom (Sample.commitFrom Sample.recordedOnce.db).2).2.runs.map (·.state) =
      [.partially] ∧
    (Sample.checked Sample.recordedOnce).Faithful Sample.contracts (fun _ => 10) Sample.fact
      ((Sample.commitFrom Sample.recordedOnce.db).2.incompleteFlag 50 7)
      (Sample.settleFrom (Sample.commitFrom Sample.recordedOnce.db).2).2 := by
  have hdurable : (Sample.commitFrom Sample.recordedOnce.db).2.durable 50 7 =
      some (Sample.durable true) := by decide +kernel
  exact ⟨by decide +kernel, Shift.undisturbed_settlements
    (Sample.checked_reached Sample.recordedOnce_reached rfl rfl (by decide +kernel) hdurable)
    (Sample.checked_settles (by decide +kernel)) rfl⟩

end ChannelDigests
