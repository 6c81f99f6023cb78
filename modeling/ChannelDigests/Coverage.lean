import ChannelDigests.Building

/-!
# Completed runs and the window they cover

A tick lists the enabled channels of its run, walks them, and selects from the channels that are
enabled by then.  Subscription commands may commit between the two readings.

* `Subscribing`, `Later`    what commits beside a tick, and after it;
* `Proceeding.Covered`      every channel selected from was read, and no message was dropped;
* `Proceeding.ListedFirst`  every channel selected from was listed;
* `mem_listed`              the listed channels are the enabled ones;
* `Leaves`                  what a tick leaves of a run;
* `coverRule`               the obligations of a tick beside subscription commands;
* `completed_covered_iff`   **a completed run covers its window when its channels were listed**.
-/

namespace ChannelDigests
open Lib Prog

/-- subscription commands, applied or rejected. -/
def Subscribing (C : Contracts) : Db → Db → Prop :=
  Evolves C (fun _ => True) .none fun k => k = .subscription ∨ k = .rejection

/-- any changes that are not an executor's. -/
def Later (C : Contracts) : Db → Db → Prop :=
  Evolves C (fun _ => True) .none fun k => k.isExecutor = false

/-- the run has ended completely. -/
def Db.completes (d : Db) (runId : Uuid) : Prop :=
  ∃ r ∈ d.runs, r.runId = runId ∧ r.state = .completed

namespace Proceeding
variable (p : Proceeding)

/-- every channel that was enabled at the selection was read to the end of the window, and no
message was dropped. -/
structure Covered (sourceCount : Nat) : Prop where
  read : ∀ channelId, p.seen.enabled p.run.ownerId channelId = true →
    ∃ report : AcquisitionReport, (channelId, .ok report) ∈ p.outcomes ∧ report.isPartial = false
  whole : (p.selection sourceCount).eligible ≤ (p.selection sourceCount).sources.length

/-- every channel that was enabled at the selection was enabled when the channels were listed. -/
def ListedFirst : Prop := ∀ channelId, p.seen.enabled p.run.ownerId channelId = true →
  p.listed.enabled p.run.ownerId channelId = true

end Proceeding

/-! ## Listed channels -/

/-- **The listed channels are the enabled ones**: the limit leaves none out. -/
theorem mem_listed {d : Db} (hd : d.Catalogued) {ownerId channelId : Uuid} :
    channelId ∈ (d.subscribedChannels ownerId).map (·.1) ↔ d.enabled ownerId channelId = true := by
  have hfew : (((d.subscriptions.filter fun s => s.ownerId = ownerId && s.enabled).filterMap fun s =>
      d.channels.find? fun c => c.channelId = s.channelId).insertionSort
        fun a b => a.username ≤ b.username).length ≤ 20 := by
    rw [List.length_insertionSort]
    refine (List.length_filterMap_le _ _).trans ?_
    rw [← List.countP_eq_length_filter]
    exact hd.limit ownerId
  unfold Db.subscribedChannels Db.enabled
  rw [List.take_of_length_le hfew, List.map_map, List.any_eq_true]
  constructor
  · intro h
    obtain ⟨c, hc, rfl⟩ := List.mem_map.mp h
    obtain ⟨s, hs, hfind⟩ := List.mem_filterMap.mp
      ((List.perm_insertionSort _ _).mem_iff.mp hc)
    obtain ⟨hmem, hs⟩ := List.mem_filter.mp hs
    have hid : c.channelId = s.channelId := by simpa using List.find?_some hfind
    refine ⟨s, hmem, ?_⟩
    rw [hs, Bool.true_and]
    exact decide_eq_true hid.symm
  · intro ⟨s, hmem, hs⟩
    rw [Bool.and_eq_true, decide_eq_true_eq] at hs
    obtain ⟨hs, rfl⟩ := hs
    obtain ⟨c, hc, hid⟩ := hd.known s hmem
    refine List.mem_map.mpr ⟨c, ?_, hid⟩
    refine (List.perm_insertionSort _ _).mem_iff.mpr (List.mem_filterMap.mpr
      ⟨s, List.mem_filter.mpr ⟨hmem, hs⟩, ?_⟩)
    exact hd.channelIds.find? hc (decide_eq_true hid) fun o _ ho => by
      rw [hid]
      exact of_decide_eq_true ho

/-- outcomes that add up to a complete acquisition are whole reports. -/
theorem acquired_complete {outcomes : Outcomes} (h : acquired outcomes = .complete) {channelId : Uuid}
    {r : Except AcquisitionError AcquisitionReport} (hr : (channelId, r) ∈ outcomes) :
    ∃ report : AcquisitionReport, r = .ok report ∧ report.isPartial = false := by
  unfold acquired at h
  split_ifs at h with hdeferred _ hshort
  have hd : isDeferred r = false := by
    by_contra hne
    exact hdeferred (List.any_eq_true.mpr ⟨_, hr, by simpa using hne⟩)
  have hs : isShort r = false := by
    by_contra hne
    exact hshort (List.any_eq_true.mpr ⟨_, hr, by simpa using hne⟩)
  rcases r with (_ | _) | report
  · cases hs
  · cases hd
  · exact ⟨report, rfl, hs⟩

/-- **A tick that recorded nothing missing has covered its window** exactly when it listed every
channel that it selected from. -/
theorem Proceeding.covered_iff {p : Proceeding} {sourceCount : Nat} (hw : p.Walked)
    (hlisted : p.listed.Catalogued) (hfull : p.incomplete sourceCount = false) :
    p.Covered sourceCount ↔ p.ListedFirst := by
  unfold Proceeding.incomplete incompleteness at hfull
  rw [Bool.or_eq_false_iff, decide_eq_false_iff_not, decide_eq_false_iff_not, not_lt] at hfull
  have hcomplete := hw.proceeds.resolve_right hfull.1
  constructor
  · intro h channelId hseen
    obtain ⟨report, hmem, -⟩ := h.read channelId hseen
    rw [← mem_listed hlisted, ← hw.channels]
    exact List.mem_map_of_mem (f := (·.1)) hmem
  · refine fun h => ⟨fun channelId hseen => ?_, hfull.2⟩
    have hmem := (mem_listed hlisted).mpr (h channelId hseen)
    rw [← hw.channels] at hmem
    obtain ⟨⟨_, r⟩, hr, rfl⟩ := List.mem_map.mp hmem
    obtain ⟨report, rfl, hwhole⟩ := acquired_complete hcomplete hr
    exact ⟨report, hr, hwhole⟩

/-! ## What a tick leaves of its run -/

/-- the run is pending or has failed. -/
def Db.quiet (d : Db) (runId : Uuid) : Prop :=
  ∀ r ∈ d.runs, r.runId = runId → r.state.pending = true ∨ r.state = .failed

/-- the tick walked the enabled channels of its run and stored what it found missing; when the run
has ended completely, nothing was. -/
structure Proceeding.Recorded (sourceCount : Nat) (p : Proceeding) (d : Db) : Prop where
  walked : p.Walked
  catalogued : p.listed.Catalogued
  row : ∃ r ∈ d.runs, r.runId = p.run.runId ∧ r.acquisitionIncomplete = p.incomplete sourceCount ∧
    (r.state = .completed → p.incomplete sourceCount = false)

/-- what a tick knows of its run and of the run `runId`. -/
structure Attending (runId : Uuid) (run : PendingRun) (d : Db) : Prop where
  keyed : d.Keyed
  catalogued : d.Catalogued
  quiet : d.quiet runId
  owned : d.holdsRun run.runId run.ownerId run.operationId

/-- what it knows once it has recorded. -/
structure Noted (sourceCount : Nat) (runId : Uuid) (p : Proceeding) (d : Db) : Prop where
  attending : Attending runId p.run d
  recorded : p.run.runId = runId → p.Recorded sourceCount d

/-- what a tick leaves of the run `runId`: nothing happened to it, or the tick recorded it. -/
def Leaves (sourceCount : Nat) (runId : Uuid) (answer : Except RunExecutionError Tick) (d : Db) :
    Prop :=
  d.Keyed ∧ (d.quiet runId ∨
    ∃ p : Proceeding, answer = .ok p.answer ∧ p.run.runId = runId ∧ p.Recorded sourceCount d)

section
variable {C : Contracts} {K : Message → Prop} {w : Crew} {k : Kind} {d d' : Db} {runId : Uuid}
  {run : PendingRun} {sourceCount : Nat} {p : Proceeding}

theorem Db.quiet.change (h : d.quiet runId) (hd : d.Keyed) (hc : Change C K w k d d')
    (he : k ≠ .empty) (hm : k ≠ .manifest) : d'.quiet runId := by
  intro r' hr' hid
  rcases hc.run_origin hd.runs hr' with ⟨r, hr, hmove⟩ | ⟨-, hstate, -⟩
  · exact hmove.pending_or_failed he hm (h r hr (hmove.runId.symm.trans hid))
  · exact .inl (by rw [hstate]; rfl)

/-- what happens to one run leaves the others quiet. -/
theorem Db.quiet.aside {ownerId other : Uuid} {q : RunState → Bool} {u : Run → Run}
    (h : d.quiet runId) (hr : d'.runs = updateWhere (Run.isOpen other ownerId q) u d.runs)
    (hu : ∀ r, (u r).runId = r.runId) (hne : other ≠ runId) : d'.quiet runId := by
  intro r' hr' hid
  rw [hr] at hr'
  obtain ⟨r, hmem, ⟨hp, rfl⟩ | ⟨-, rfl⟩⟩ := mem_updateWhere.mp hr'
  · simp only [Run.isOpen, Bool.and_eq_true, decide_eq_true_eq] at hp
    exact absurd (hp.1.1.symm.trans ((hu r).symm.trans hid)) hne
  · exact h _ hmem hid

/-- a recorded run keeps its record, and only a change that finds nothing missing completes it. -/
theorem Proceeding.Recorded.change (h : p.Recorded sourceCount d) (hd : d.Keyed)
    (hc : Change C K w k d d') (hk : k ≠ .recorded)
    (hfull : ∀ r ∈ d.runs, r.runId = p.run.runId → k.moves r.state .completed = true →
      ∀ r' ∈ d'.runs, r'.runId = p.run.runId → r'.state = .completed →
        p.incomplete sourceCount = false) : p.Recorded sourceCount d' := by
  obtain ⟨r, hr, hid, hflag, hdone⟩ := h.row
  obtain ⟨r', hr', hmove⟩ := hc.run_kept hd.runs hr
  have hid' := hmove.runId.trans hid
  refine ⟨h.walked, h.catalogued, r', hr', hid', (hmove.flag hk).trans hflag, fun hs => ?_⟩
  rcases hmove.state with he | harrow
  · exact hdone (he.symm.trans hs)
  · exact hfull r hr hid (hs ▸ harrow) r' hr' hid' hs

theorem Attending.change (h : Attending runId run d) (hc : Change C K w k d d') (he : k ≠ .empty)
    (hm : k ≠ .manifest) : Attending runId run d' where
  keyed := hc.keyed h.keyed
  catalogued := hc.catalogued h.catalogued
  quiet := h.quiet.change h.keyed hc he hm
  owned := hc.holdsRun h.keyed.runs h.owned

theorem Attending.subscribing (h : Attending runId run d) (hc : Subscribing C d d') :
    Attending runId run d' :=
  hc.keeps (fun hk hc hI => hI.change hc (by rintro rfl; simp at hk) (by rintro rfl; simp at hk)) h

/-- subscription commands leave a record as it is. -/
theorem Noted.subscribing (h : Noted sourceCount runId p d) (hc : Subscribing C d d') :
    Noted sourceCount runId p d' := by
  refine hc.keeps (I := Noted sourceCount runId p) (fun {k d d'} hk hc hI => ?_) h
  have hruns : d'.runs = d.runs := hc.frame .runs (by rcases hk with rfl | rfl <;> decide)
  refine ⟨hI.attending.change hc (by rintro rfl; simp at hk) (by rintro rfl; simp at hk),
    fun he => ?_⟩
  have hrec := hI.recorded he
  exact ⟨hrec.walked, hrec.catalogued, hruns ▸ hrec.row⟩

end

/-! ## Ticks -/

section
variable {C : Contracts} {K : Message → Prop} {w : Crew} {k : Kind} {d d' : Db} {runId : Uuid}
  {sourceCount : Nat}

theorem subscribing_surrounds : Surrounds (Subscribing C) anyAnswer True :=
  ⟨fun _ => .refl, Relation.ReflTransGen.trans, fun _ _ _ _ _ => trivial⟩

theorem Attending.leaves {run : PendingRun} {answer : Except RunExecutionError Tick}
    (h : Attending runId run d) : Leaves sourceCount runId answer d :=
  ⟨h.keyed, .inl h.quiet⟩

theorem Attending.failed (C : Contracts) {m : Moment} {run : PendingRun} {failure : RunFailure}
    {answer : Except RunExecutionError Tick} (h : Attending runId run d)
    (hf : RunFailed m d d' run.runId run.ownerId failure) : Leaves sourceCount runId answer d' := by
  have hc : Change C (fun _ => True) .one .failed d d' := .failed hf
  exact (h.change hc (by decide) (by decide)).leaves

/-- the obligations of a tick beside subscription commands. -/
theorem coverRule (runId : Uuid) (sourceCount : Nat) :
    TickRule C sourceCount (Subscribing C) (fun _ _ => True) anyAnswer True
      (fun d => d.Keyed ∧ d.Catalogued ∧ d.quiet runId) (Attending runId)
      (Noted sourceCount runId) (Leaves sourceCount runId) where
  walk run :=
    { surrounds := subscribing_surrounds
      other := fun h hI => hI.subscribing h
      idle := fun _ => trivial
      step := fun hI hstep => by
        obtain ⟨k, hc, he, hm⟩ := hstep.changes
        exact ⟨trivial, hI.change hc he hm⟩ }
  before h hN := h.keeps (I := fun d => d.Keyed ∧ d.Catalogued ∧ d.quiet runId)
    (fun hk hc hI => ⟨hc.keyed hI.1, hc.catalogued hI.2.1,
      hI.2.2.change hI.1 hc (by rintro rfl; simp at hk) (by rintro rfl; simp at hk)⟩) hN
  lost hN := ⟨hN.1, .inl hN.2.2⟩
  idle hN := ⟨hN.1, .inl hN.2.2⟩
  pick {now d run} hN hpick := by
    obtain ⟨r, hr, rfl⟩ := Option.map_eq_some_iff.mp hpick
    have hmem := (List.perm_insertionSort _ _).mem_iff.mp (List.mem_of_mem_head? hr)
    exact ⟨hN.1, hN.2.1, hN.2.2, r, (List.mem_filter.mp hmem).1, rfl, rfl, rfl⟩
  begun {m run d d'} hI h := by
    have hc : Change C (fun _ => True) .one .acquiring d d' := .acquiring h
    exact ⟨trivial, hI.change hc (by decide) (by decide)⟩
  dropped hI := hI.leaves
  taken hI := hI.leaves
  deferred hI := hI.leaves
  unavailable hI h := ⟨trivial, hI.failed C h⟩
  record {p d} hlisted hseen hw h := by
    have hI := hseen.subscribing h
    have hc : Change C (fun _ => True) .many .recorded d
        (d.record p.run.runId (p.incomplete sourceCount)) := .recorded (by decide) (by simp)
    refine ⟨trivial, hI.change hc (by decide) (by decide), fun hid => ⟨hw, hlisted.catalogued, ?_⟩⟩
    obtain ⟨r, hr, hrun, -⟩ := hI.owned
    refine ⟨_, mem_updateWhere.mpr ⟨r, hr, .inl ⟨decide_eq_true hrun, rfl⟩⟩, hrun, rfl, fun hs => ?_⟩
    -- the run was quiet, so it is not completed yet.
    rcases hI.quiet r hr (hrun.trans hid) with hq | hq
    · rw [show r.state = .completed from hs] at hq
      cases hq
    · rw [show r.state = .completed from hs] at hq
      cases hq
  recorded h hJ := hJ.subscribing h
  stopped hJ := hJ.attending.leaves
  replayed hJ _ := hJ.attending.leaves
  failed hJ h := ⟨trivial, hJ.attending.failed C h⟩
  empty {m p d d'} hJ hfull h := by
    have hc : Change C (fun _ => True) .one .empty d d' := .empty h
    refine ⟨trivial, hc.keyed hJ.attending.keyed, ?_⟩
    rcases eq_or_ne p.run.runId runId with he | hne
    · exact .inr ⟨p, rfl, he, (hJ.recorded he).change hJ.attending.keyed hc (by decide)
        fun _ _ _ _ _ _ _ _ => hfull⟩
    · obtain ⟨ob, -, rfl⟩ := h.effect
      exact .inl (hJ.attending.quiet.aside rfl (fun _ => rfl) hne)
  owned hJ := hJ.attending.owned
  commit {m p manifest request manifestId d d'} hJ hb h := by
    have hc : Change C (fun _ => True) .many .manifest d d' := .manifest h (by simp)
    refine ⟨trivial, hc.keyed hJ.attending.keyed, ?_⟩
    rcases eq_or_ne p.run.runId runId with he | hne
    · exact .inr ⟨p, rfl, he, (hJ.recorded he).change hJ.attending.keyed hc (by decide)
        fun r _ _ hm => by simp [Kind.moves] at hm⟩
    · have heffect := congrArg Db.runs h.effect
      rw [(build_ok hb).runId_eq] at heffect
      exact .inl (hJ.attending.quiet.aside heffect (fun _ => rfl) hne)

end

/-! ## After the tick -/

section
variable {C : Contracts} {k : Kind} {d d' e : Db} {runId : Uuid} {sourceCount : Nat} {p : Proceeding}

/-- a completion that completes its run found nothing missing stored. -/
theorem Change.completed_flag (h : Change C (fun _ => True) .none .completion d d') (hd : d.Keyed)
    {r r' : Run} (hr : r ∈ d.runs) (hr' : r' ∈ d'.runs) (hid : r'.runId = r.runId)
    (hs : r'.state = .completed) : r.state = .completed ∨ r.acquisitionIncomplete = false := by
  cases h with
  | @completion m _ _ fact _ _ _ incomplete _ _ _ _ hset hflag =>
    obtain ⟨ob, -, rfl⟩ := hset.effect
    rcases isOpen_row hd hr hr' (fun _ => rfl) hid with he | ⟨h1, h2, -, rfl⟩
    · exact .inl (he.symm.trans hs)
    · have hi : incomplete = false := by
        by_contra hne
        rw [Bool.not_eq_false] at hne
        subst hne
        simp [Run.enter, completionOutcome, Outcome.state] at hs
      rw [hflag rfl, Db.incompleteFlag, h1, h2, hd.ownRun hr] at hi
      exact .inr hi

/-- what happens after the tick keeps its record. -/
theorem Proceeding.Recorded.later (h : p.Recorded sourceCount d) (hd : d.Keyed)
    (hc : Change C (fun _ => True) .none k d d') (hk : k.isExecutor = false) :
    p.Recorded sourceCount d' := by
  refine h.change hd hc (hc.not_recorded rfl) fun r hr hid hm r' hr' hid' hs => ?_
  -- only a completion takes a run to its end without an executor.
  obtain ⟨hk, hw⟩ : k = .completion ∧ r.state = .waitingRecap := by
    revert hm hk
    cases k <;> cases r.state <;> decide
  subst hk
  obtain ⟨o, ho, hoid, hflag, -⟩ := h.row
  obtain rfl := hd.runs.eq ho hr (hoid.trans hid.symm)
  rcases hc.completed_flag hd hr hr' (hid'.trans hid.symm) hs with he | hfull
  · rw [hw] at he
    cases he
  · exact hflag.symm.trans hfull

theorem Db.quiet.later (h : d.quiet runId) (hd : d.Keyed)
    (hc : Change C (fun _ => True) .none k d d') (hk : k.isExecutor = false) : d'.quiet runId :=
  h.change hd hc (by rintro rfl; cases hk) (by rintro rfl; cases hk)

/-- a run that is completed after the tick was recorded by it, with nothing missing. -/
theorem Leaves.completed {answer : Except RunExecutionError Tick}
    (h : Leaves sourceCount runId answer d) (hl : Later C d e) (he : e.completes runId) :
    ∃ p : Proceeding, answer = .ok p.answer ∧ p.run.runId = runId ∧ p.Walked ∧
      p.listed.Catalogued ∧ p.incomplete sourceCount = false := by
  obtain ⟨r, hr, hid, hs⟩ := he
  obtain ⟨hd, hq | ⟨p, ha, hrun, hrec⟩⟩ := h
  · have hq := (hl.keeps (I := fun d => d.Keyed ∧ d.quiet runId)
      (fun hk hc hI => ⟨hc.keyed hI.1, hI.2.later hI.1 hc hk⟩) ⟨hd, hq⟩).2
    rcases hq r hr hid with h | h <;> rw [hs] at h <;> cases h
  · obtain ⟨hd', hrec⟩ := hl.keeps (I := fun d => d.Keyed ∧ p.Recorded sourceCount d)
      (fun hk hc hI => ⟨hc.keyed hI.1, hI.2.later hI.1 hc hk⟩) ⟨hd, hrec⟩
    obtain ⟨o, ho, hoid, -, hfull⟩ := hrec.row
    obtain rfl := hd'.runs.eq ho hr (hoid.trans (hrun.trans hid.symm))
    exact ⟨p, ha, hrun, hrec.walked, hrec.catalogued, hfull hs⟩

/-- **A completed run covered its window exactly when every channel that it selected from was
listed**: whatever the provider answers, whatever subscription commands commit between the steps of
the tick, and whatever settles the run later. -/
theorem completed_covered_iff {S : Setting} {answer : Except RunExecutionError Tick}
    (h : Reachable C S d) (hpending : ∃ r ∈ d.runs, r.runId = runId ∧ r.state.pending = true)
    (ht : Runs (S := service) (Subscribing C) anyAnswer (tick C sourceCount) d () answer d' ())
    (hl : Later C d' e) (he : e.completes runId) :
    ∃ p : Proceeding, answer = .ok p.answer ∧ p.run.runId = runId ∧
      (p.Covered sourceCount ↔ p.ListedFirst) := by
  have hd : d.Keyed ∧ d.Catalogued := h.keeps (I := fun d => d.Keyed ∧ d.Catalogued)
    ⟨.empty, .empty⟩ fun hc hI => ⟨hc.keyed hI.1, hc.catalogued hI.2⟩
  obtain ⟨r, hr, hid, hp⟩ := hpending
  have hquiet : d.quiet runId := fun o ho hoid => by
    rw [hd.1.runs.eq ho hr (hoid.trans hid.symm)]
    exact .inl hp
  obtain ⟨t, hts, hleaves⟩ := Safe.runs (S := service) (fun _ => .refl) Relation.ReflTransGen.trans
    (tick_safe (coverRule runId sourceCount) ⟨hd.1, hd.2, hquiet⟩) ht
  have hafter : Later C t d' := hts.mono fun k hk => by rcases hk with rfl | rfl <;> rfl
  obtain ⟨p, ha, hrun, hw, hlisted, hfull⟩ := hleaves.completed (hafter.trans hl) he
  exact ⟨p, ha, hrun, p.covered_iff hw hlisted hfull⟩

end

/-! ## A channel that is enabled too late -/

namespace Sample

/-- an owner without a subscription has asked for a digest. -/
def onlyAsked : Db :=
  (Pool.play (worker contracts (setting .many False))
    [.start (.acceptRun 102 (.payload (.run request))), .run 0 100 (answers 6 2000 page)]
    ⟨[], Db.empty⟩).state

/-- the tick has begun the acquisition and listed no channel. -/
def listing : Action RunExecutionError Tick × Db :=
  advance (S := service) (answers 7 3000 page) 6 (tick contracts 10, onlyAsked)

/-- the owner subscribes to a channel. -/
def joined : Db :=
  { listing.2 with
    channels := [⟨1991, "rustlang", none⟩]
    subscriptions := [⟨1990, 7, 1991, 8, true⟩]
    inbox := listing.2.inbox ++ [.handled 101 .subscription (.text "subscribe") 0 8]
    outbox := listing.2.outbox ++ [(subscriptionReport subscribe 101).outboxRow 1992 8] }

/-- the tick selects nothing from the new channel, and completes the run. -/
def lateTick : Action RunExecutionError Tick × Db :=
  advance (S := service) (answers 9 4000 page) 100 (listing.1, joined)

/-- what the tick worked on. -/
def lateProceeding : Proceeding :=
  ⟨⟨50, 7, 0, 1000000000, .ru, .accepted, 12⟩, listing.2, [], joined⟩

theorem onlyAsked_reachable : Reachable contracts (setting .many False) onlyAsked := by
  refine ⟨_, Pool.play_reach ⟨starts ?_ id rfl, fun u _ => answers_given _ _ _ _, trivial⟩⟩
  rintro _ ⟨⟩
  simp [setting, messages]

theorem joins : Subscribing contracts listing.2 joined := by
  have hset : ({ listing.2 with inbox := listing.2.inbox ++
        [.processing 101 .subscription (.text "subscribe") 0] } : Db).setSubscription
      1990 1991 7 "rustlang" true 8 = .row ⟨1990, 7, 1991, 8, true⟩ { joined with
        inbox := listing.2.inbox ++ [.processing 101 .subscription (.text "subscribe") 0]
        outbox := listing.2.outbox } := rfl
  have hc : Change contracts (fun _ => True) .none .subscription listing.2 joined :=
    .subscription (m := ⟨8, fun k => 1990 + k, none⟩) (c := subscribe) trivial
      ⟨by decide +kernel, _, _, joined.outbox, hset,
        .inr ⟨rfl, by decide +kernel, by decide +kernel⟩, rfl⟩
  exact .single ⟨_, .inl rfl, hc⟩

theorem lateTick_runs : Runs (S := service) (Subscribing contracts) anyAnswer (tick contracts 10)
    onlyAsked () (.ok lateProceeding.answer) lateTick.2 () := by
  have first : Exec (S := service) (Subscribing contracts) anyAnswer
      (tick contracts 10, onlyAsked, ()) (listing.1, listing.2, ()) :=
    advance_exec (fun _ _ => trivial) 6 _ _
  have last : Exec (S := service) (Subscribing contracts) anyAnswer
      (listing.1, joined, ()) (lateTick.1, lateTick.2, ()) :=
    advance_exec (fun _ _ => trivial) 100 _ _
  exact runs_of_answer ((first.other joins).trans last) rfl

theorem lateTick_completes : lateTick.2.completes 50 := by
  unfold Db.completes
  decide +kernel

end Sample

/-- the condition at a run that ends although its only channel was never listed. -/
theorem late_channel_unlisted : ∃ p : Proceeding,
    Except.ok (ε := RunExecutionError) Sample.lateProceeding.answer = .ok p.answer ∧
      p.run.runId = 50 ∧ (p.Covered 10 ↔ p.ListedFirst) :=
  completed_covered_iff Sample.onlyAsked_reachable (by decide +kernel) Sample.lateTick_runs .refl
    Sample.lateTick_completes

/-- a run completes that never read an enabled channel of its owner. -/
theorem late_channel_unread : ¬ ∀ (C : Contracts) (S : Setting) (sourceCount : Nat) (runId : Uuid)
    (d d' e : Db) (p : Proceeding), Reachable C S d →
    (∃ r ∈ d.runs, r.runId = runId ∧ r.state.pending = true) →
    Runs (S := service) (Subscribing C) anyAnswer (tick C sourceCount) d () (.ok p.answer) d' () →
    p.run.runId = runId → Later C d' e → e.completes runId → p.Covered sourceCount := by
  intro h
  have hcovered := h _ _ 10 50 _ _ _ _ Sample.onlyAsked_reachable (by decide +kernel)
    Sample.lateTick_runs rfl .refl Sample.lateTick_completes
  obtain ⟨report, hmem, -⟩ := hcovered.read 1991 (by decide +kernel)
  cases hmem

end ChannelDigests
