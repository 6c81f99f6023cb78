import ChannelDigests.Executor
import ChannelDigests.Keys

/-!
# What the selection sees

`Db.selectSources` picks, of each message of the owner's enabled channels inside the window, the
latest revision that still has its text.

* `mem_selectSources`        a source is such a revision;
* `Change.live`              only a withdrawal takes the last live revision of a message.
-/

namespace ChannelDigests
open Lib

section
variable {d : Db} {run : PendingRun}

theorem mem_windowRevisions {r : Revision} :
    r ∈ d.windowRevisions run ↔ r ∈ d.revisions ∧ d.enabled run.ownerId r.channelId = true ∧
      run.windowStart ≤ r.publishedAt ∧ r.publishedAt < run.windowEnd := by
  simp [Db.windowRevisions, and_assoc]

/-- a selected revision has its text, lies in the window, and no eligible one of its message is
later. -/
theorem mem_latestRevisions {r : Revision} :
    r ∈ d.latestRevisions run ↔
      (r ∈ d.windowRevisions run ∧ r.eligible = true ∧ ∃ c ∈ d.channels, c.channelId = r.channelId) ∧
      ∀ o ∈ d.windowRevisions run, o.eligible = true →
        (∃ c ∈ d.channels, c.channelId = o.channelId) → r.sameMessage o = true → r.before o = false := by
  simp only [Db.latestRevisions, List.mem_filter, Bool.and_eq_true, List.any_eq_true,
    decide_eq_true_eq, Bool.not_eq_true', List.any_eq_false, and_imp]
  refine and_congr_right fun _ => forall_congr' fun o => forall_congr' fun _ =>
    forall_congr' fun _ => forall_congr' fun _ => ?_
  cases r.sameMessage o <;> simp

/-- a source of the selection is a selected revision. -/
theorem mem_selectSources {cap : Nat} {s : ManifestSource}
    (h : s ∈ (d.selectSources run cap).sources) :
    ∃ r ∈ d.latestRevisions run, s = d.manifestSource run r := by
  simp only [Db.selectSources, List.mem_reverse, List.mem_map] at h
  obtain ⟨r, hr, rfl⟩ := h
  exact ⟨r, (List.perm_insertionSort _ _).mem_iff.mp (List.mem_of_mem_take hr), rfl⟩

/-- the message of a source has a revision that is not withdrawn. -/
theorem selectSources_live {cap : Nat} {s : ManifestSource}
    (h : s ∈ (d.selectSources run cap).sources) : d.live s.channelId s.messageId := by
  obtain ⟨r, hr, rfl⟩ := mem_selectSources h
  obtain ⟨⟨hw, he, -⟩, -⟩ := mem_latestRevisions.mp hr
  simp only [Revision.eligible, Bool.and_eq_true, Option.isNone_iff_eq_none] at he
  exact ⟨r, (mem_windowRevisions.mp hw).1, rfl, rfl, he.2⟩

end

/-! ## Revisions -/

section
variable {C : Contracts} {K : Message → Prop} {w : Crew} {k : Kind} {d d' : Db}

/-- a revision before and after a change: its text may be dropped, or it is withdrawn. -/
def RevisionMoves (k : Kind) (r r' : Revision) : Prop :=
  r' = r ∨ (∃ now, r' = r.minimize now) ∨
    (k = .withdrawal ∧ r.deletedAt = none ∧ ∃ now, r' = r.withdraw now)

theorem RevisionMoves.revisionId {r r' : Revision} (h : RevisionMoves k r r') :
    r'.revisionId = r.revisionId := by
  rcases h with rfl | ⟨now, rfl⟩ | ⟨-, -, now, rfl⟩ <;> rfl

/-- **The revisions after a change**: rows that lose their text, and one new row or none. -/
theorem Change.revisions (h : Change C K w k d d') :
    (∃ u : Revision → Revision, d'.revisions = d.revisions.map u ∧ ∀ r, RevisionMoves k r (u r)) ∨
    (k = .append ∧ ∃ (o : ObservedRevision) (revisionId : Uuid),
      d.appendRevision (o.row revisionId (C.textDigest o.body)) = some d' ∧
      d'.revisions = d.revisions ++ [o.row revisionId (C.textDigest o.body)] ∧
      (∀ r ∈ d.revisions, r.contentKey ≠ (o.row revisionId (C.textDigest o.body)).contentKey) ∧
      ∀ r ∈ d.revisions, r.revisionId ≠ revisionId) := by
  have hf := h.frame .revisions
  have update : ∀ {k : Kind} {p : Revision → Bool} {v : Revision → Revision} {rows : List Revision},
      (∀ r, p r = true → RevisionMoves k r (v r)) → rows = updateWhere p v d.revisions →
      ∃ u : Revision → Revision, rows = d.revisions.map u ∧ ∀ r, RevisionMoves k r (u r) :=
    fun {k p v rows} hv hrows => by
      refine ⟨fun r => if p r then v r else r, hrows, fun r => ?_⟩
      dsimp only
      split_ifs with hp
      · exact hv r hp
      · exact .inl rfl
  cases h with
  | @append d d' o revisionId h =>
    have h' := h
    unfold Db.appendRevision at h
    split_ifs at h with hk hid hc
    · cases h
      exact .inl ⟨id, (List.map_id _).symm, fun r => .inl rfl⟩
    · cases h
      refine .inr ⟨rfl, o, revisionId, h', rfl, fun r hr he => hk ?_, fun r hr he => hid ?_⟩
      · exact List.any_eq_true.mpr ⟨r, hr, decide_eq_true he⟩
      · exact List.any_eq_true.mpr ⟨r, hr, decide_eq_true he⟩
  | withdrawal =>
    refine .inl (update (fun r hp => .inr (.inr ⟨rfl, ?_, _, rfl⟩)) rfl)
    simp only [Bool.and_eq_true, Option.isNone_iff_eq_none] at hp
    exact hp.1.2
  | bodies => exact .inl (update (fun r _ => .inr (.inl ⟨_, rfl⟩)) rfl)
  | _ => exact .inl ⟨id, (hf (by decide)).trans (List.map_id _).symm, fun r => .inl rfl⟩

/-- only a withdrawal takes the last live revision of a message. -/
theorem Change.live (h : Change C K w k d d') (hk : k ≠ .withdrawal) {channelId : Uuid}
    {messageId : Int} (hl : d.live channelId messageId) : d'.live channelId messageId := by
  obtain ⟨r, hr, h1, h2, h3⟩ := hl
  rcases h.revisions with ⟨u, hd', hu⟩ | ⟨-, o, id, -, hd', -⟩
  · refine ⟨u r, by rw [hd']; exact List.mem_map_of_mem hr, ?_⟩
    rcases hu r with he | ⟨now, he⟩ | ⟨hw, -⟩
    · rw [he]
      exact ⟨h1, h2, h3⟩
    · rw [he]
      exact ⟨h1, h2, h3⟩
    · exact absurd hw hk
  · exact ⟨r, by rw [hd']; exact List.mem_append_left _ hr, h1, h2, h3⟩

end

end ChannelDigests
