import ChannelDigests.Runs

/-!
# Keys and rows

What changes do to the other tables, and the unique keys of all of them.

* `Db.queued`          a row of the outbox has a key; `offered_queued` what offering a report adds;
* `Change.manifests`, `Change.results`, `Change.inbox`   the rows of one table after a change;
* `Db.Keyed`           the unique keys of the schema;
* `Change.keyed`       **every change keeps the unique keys**.
-/

namespace ChannelDigests
open Lib

/-! ## The outbox -/

/-- a row of the outbox has this key. -/
def Db.queued (d : Db) (key : OutboxKey) : Prop := ∃ r ∈ d.outbox, r.key = key

/-- the rows after a row is offered: the same keys, and the new one. -/
theorem Offered.key {rows rows' : List OutboxMessage} {row : OutboxMessage}
    (h : Offered rows row rows') (key : OutboxKey) :
    (∃ r ∈ rows', r.key = key) ↔ (∃ r ∈ rows, r.key = key) ∨ key = row.key := by
  rcases h with ⟨rfl, r, hr, hk⟩ | ⟨rfl, -, -⟩
  · constructor
    · exact .inl
    · rintro (h | rfl)
      · exact h
      · exact ⟨r, hr, hk⟩
  · rw [@eq_comm _ key row.key]
    simp only [List.mem_append, List.mem_singleton, or_and_right, exists_or, exists_eq_left]

/-- an offered row was there, or is the row itself. -/
theorem Offered.mem {rows rows' : List OutboxMessage} {row r : OutboxMessage}
    (h : Offered rows row rows') (hr : r ∈ rows') : r ∈ rows ∨ r = row := by
  rcases h with ⟨rfl, -⟩ | ⟨rfl, -, -⟩
  · exact .inl hr
  · simpa using hr

theorem Offered.kept {rows rows' : List OutboxMessage} {row r : OutboxMessage}
    (h : Offered rows row rows') (hr : r ∈ rows) : r ∈ rows' := by
  rcases h with ⟨rfl, -⟩ | ⟨rfl, -, -⟩
  · exact hr
  · exact List.mem_append_left _ hr

theorem Offered.unique {rows rows' : List OutboxMessage} {row : OutboxMessage}
    (h : Offered rows row rows') (hu : KeyUnique (·.key) rows) : KeyUnique (·.key) rows' := by
  rcases h with ⟨rfl, -⟩ | ⟨rfl, hk, -⟩
  · exact hu
  · exact hu.snoc hk

/-- the rows after reports are offered one after the other. -/
theorem OfferedAll.key {rows rows' more : List OutboxMessage} (h : OfferedAll rows more rows')
    (key : OutboxKey) :
    (∃ r ∈ rows', r.key = key) ↔ (∃ r ∈ rows, r.key = key) ∨ ∃ r ∈ more, r.key = key := by
  induction more generalizing rows with
  | nil =>
    rw [show rows' = rows from h]
    simp
  | cons row more ih =>
    obtain ⟨mid, hmid, hrest⟩ := h
    rw [ih hrest, hmid.key, or_assoc, @eq_comm _ key row.key]
    simp only [List.mem_cons, or_and_right, exists_or, exists_eq_left]

theorem OfferedAll.mem {rows rows' more : List OutboxMessage} {r : OutboxMessage}
    (h : OfferedAll rows more rows') (hr : r ∈ rows') : r ∈ rows ∨ r ∈ more := by
  induction more generalizing rows with
  | nil => exact .inl ((show rows' = rows from h) ▸ hr)
  | cons row more ih =>
    obtain ⟨mid, hmid, hrest⟩ := h
    rcases ih hrest with hr | hr
    · rcases hmid.mem hr with hr | rfl
      · exact .inl hr
      · exact .inr List.mem_cons_self
    · exact .inr (List.mem_cons_of_mem _ hr)

theorem OfferedAll.kept {rows rows' more : List OutboxMessage} {r : OutboxMessage}
    (h : OfferedAll rows more rows') (hr : r ∈ rows) : r ∈ rows' := by
  induction more generalizing rows with
  | nil => exact (show rows' = rows from h) ▸ hr
  | cons row more ih =>
    obtain ⟨mid, hmid, hrest⟩ := h
    exact ih hrest (hmid.kept hr)

theorem OfferedAll.unique {rows rows' more : List OutboxMessage} (h : OfferedAll rows more rows')
    (hu : KeyUnique (·.key) rows) : KeyUnique (·.key) rows' := by
  induction more generalizing rows with
  | nil => exact (show rows' = rows from h) ▸ hu
  | cons row more ih =>
    obtain ⟨mid, hmid, hrest⟩ := h
    exact ih hrest (hmid.unique hu)

/-- one offered row, or none, as a list. -/
theorem OfferedOwned.all {rows rows' : List OutboxMessage} {owned : Option Uuid}
    {report : Uuid → OperationReportRow} {id : Uuid} {now : Instant}
    (h : OfferedOwned rows owned report id now rows') :
    OfferedAll rows (owned.toList.map fun operation => (report operation).outboxRow id now) rows' := by
  cases owned with
  | none => exact h
  | some operation => exact ⟨_, h, rfl⟩

/-! ## Manifests and results -/

/-- a manifest row before and after a change: its text may be dropped. -/
def ManifestMoves (m m' : Manifest) : Prop := m' = m ∨ ∃ now, m' = m.minimize now

namespace ManifestMoves
variable {m m' : Manifest}

theorem manifestId (h : ManifestMoves m m') : m'.manifestId = m.manifestId := by
  rcases h with rfl | ⟨now, rfl⟩ <;> rfl

theorem runId (h : ManifestMoves m m') : m'.runId = m.runId := by
  rcases h with rfl | ⟨now, rfl⟩ <;> rfl

theorem ownerId (h : ManifestMoves m m') : m'.ownerId = m.ownerId := by
  rcases h with rfl | ⟨now, rfl⟩ <;> rfl

theorem sha256 (h : ManifestMoves m m') : m'.sha256 = m.sha256 := by
  rcases h with rfl | ⟨now, rfl⟩ <;> rfl

theorem counts (h : ManifestMoves m m') :
    m'.sourceCount = m.sourceCount ∧ m'.channelCount = m.channelCount := by
  rcases h with rfl | ⟨now, rfl⟩ <;> exact ⟨rfl, rfl⟩

end ManifestMoves

section
variable {C : Contracts} {K : Message → Prop} {w : Crew} {k : Kind} {d d' : Db}

/-- **The manifests after a change**: texts may be dropped, or one manifest was committed. -/
theorem Change.manifests (h : Change C K w k d d') :
    (k ≠ .manifest ∧ ∃ u : Manifest → Manifest, d'.manifests = d.manifests.map u ∧
      ∀ m, ManifestMoves m (u m)) ∨
    (k = .manifest ∧ ∃ m manifest request, ManifestCommitted m d d' C manifest request ∧
      (w ≠ .many → ∀ l ∈ manifest.messages, d.live l.1 l.2)) := by
  have drop : ∀ {k : Kind} {p : Manifest → Bool} {now : Instant} {rows : List Manifest},
      k ≠ .manifest → rows = updateWhere p (Manifest.minimize now) d.manifests →
      (k ≠ .manifest ∧ ∃ u : Manifest → Manifest, rows = d.manifests.map u ∧
        ∀ m, ManifestMoves m (u m)) := fun {k p now rows} hk hrows => by
    refine ⟨hk, fun m => if p m then m.minimize now else m, hrows, fun m => ?_⟩
    dsimp only
    split_ifs
    · exact .inr ⟨now, rfl⟩
    · exact .inl rfl
  have hf := h.frame .manifests
  cases h with
  | manifest h hl => exact .inr ⟨rfl, _, _, _, h, hl⟩
  | withdrawal => exact .inl (drop (by decide) rfl)
  | manifestTexts => exact .inl (drop (by decide) rfl)
  | _ => exact .inl ⟨by decide, id, (hf (by decide)).trans (List.map_id _).symm, fun m => .inl rfl⟩

/-- a stored manifest is still stored after a change. -/
theorem Change.manifest_kept (h : Change C K w k d d') {m : Manifest} (hm : m ∈ d.manifests) :
    ∃ m' ∈ d'.manifests, ManifestMoves m m' := by
  rcases h.manifests with ⟨-, u, hd', hu⟩ | ⟨-, _, _, _, hc, -⟩
  · exact ⟨u m, by rw [hd']; exact List.mem_map_of_mem hm, hu m⟩
  · exact ⟨m, by rw [hc.effect]; exact List.mem_append_left _ hm, .inl rfl⟩

/-- a manifest is stored already, or it is the committed one. -/
theorem Change.manifest_origin (h : Change C K w k d d') {m' : Manifest} (hm : m' ∈ d'.manifests) :
    (∃ m ∈ d.manifests, ManifestMoves m m') ∨
      ∃ m manifest request, ManifestCommitted m d d' C manifest request ∧
        (w ≠ .many → ∀ l ∈ manifest.messages, d.live l.1 l.2) ∧ m' = manifest.row m.now := by
  rcases h.manifests with ⟨-, u, hd', hu⟩ | ⟨-, m, manifest, request, hc, hl⟩
  · rw [hd'] at hm
    obtain ⟨o, ho, rfl⟩ := List.mem_map.mp hm
    exact .inl ⟨o, ho, hu o⟩
  · rw [hc.effect] at hm
    rcases List.mem_append.mp hm with hm | hm
    · exact .inl ⟨m', hm, .inl rfl⟩
    · exact .inr ⟨m, manifest, request, hc, hl, List.mem_singleton.mp hm⟩

/-- **The results after a change**: one fact may have settled a run. -/
theorem Change.results (h : Change C K w k d d') :
    d'.results = d.results ∨
    (∃ m fact analysisId messageId sha incomplete run manifest,
      K (.completed messageId fact) ∧ fact.analysisRef = some analysisId ∧
      CompletionSettled m d d' fact analysisId messageId sha incomplete run manifest ∧
      (w = .none → incomplete = d.incompleteFlag fact.digestRunId fact.owner)) ∨
    ∃ m fact manifestId messageId sha, K (.failed messageId fact) ∧
      FailureSettled m d d' fact manifestId messageId sha := by
  have hf := h.frame .results
  cases h with
  | completion hk ha h hw => exact .inr (.inl ⟨_, _, _, _, _, _, _, _, hk, ha, h, hw⟩)
  | recapFailure hk h => exact .inr (.inr ⟨_, _, _, _, _, hk, h⟩)
  | _ => exact .inl (hf (by decide))

theorem Change.result_kept (h : Change C K w k d d') {r : DigestResult} (hr : r ∈ d.results) :
    r ∈ d'.results := by
  rcases h.results with hd' | ⟨_, _, _, _, _, _, _, _, -, -, hc, -⟩ | ⟨_, _, _, _, _, -, hc⟩
  · rwa [hd']
  · obtain ⟨ob, -, hd'⟩ := hc.effect
    rw [hd']
    exact List.mem_append_left _ hr
  · obtain ⟨ob, -, hd'⟩ := hc.effect
    rw [hd']
    exact List.mem_append_left _ hr

/-! ## Unique keys -/

/-- the unique keys of the schema that later steps rest on. -/
structure Db.Keyed (d : Db) : Prop where
  runs : KeyUnique Run.runId d.runs
  manifests : KeyUnique Manifest.manifestId d.manifests
  manifestRuns : KeyUnique Manifest.runId d.manifests
  results : KeyUnique DigestResult.resultId d.results
  resultRuns : KeyUnique DigestResult.runId d.results

theorem Db.Keyed.empty : Db.empty.Keyed := ⟨.nil, .nil, .nil, .nil, .nil⟩

theorem keyUnique_map {ρ κ : Type} {key : ρ → κ} {u : ρ → ρ} {rows : List ρ}
    (h : KeyUnique key rows) (hu : ∀ r, key (u r) = key r) : KeyUnique key (rows.map u) := by
  unfold KeyUnique
  rwa [List.map_map, show key ∘ u = key from funext hu]

/-- **Every change keeps the unique keys.** -/
theorem Change.keyed (h : Change C K w k d d') (hd : d.Keyed) : d'.Keyed := by
  have hm : KeyUnique Manifest.manifestId d'.manifests ∧ KeyUnique Manifest.runId d'.manifests := by
    rcases h.manifests with ⟨-, u, hd', hu⟩ | ⟨-, m, manifest, request, hc, -⟩
    · rw [hd']
      exact ⟨keyUnique_map hd.manifests fun r => (hu r).manifestId,
        keyUnique_map hd.manifestRuns fun r => (hu r).runId⟩
    · rw [hc.effect]
      exact ⟨hd.manifests.snoc hc.newId, hd.manifestRuns.snoc hc.newRun⟩
  have hr : KeyUnique DigestResult.resultId d'.results ∧ KeyUnique DigestResult.runId d'.results := by
    have free : ∀ {row : DigestResult}, d.resultFree row →
        KeyUnique DigestResult.resultId (d.results ++ [row]) ∧
          KeyUnique DigestResult.runId (d.results ++ [row]) := fun hfree =>
      ⟨hd.results.snoc fun r hr => (hfree r hr).1, hd.resultRuns.snoc fun r hr => (hfree r hr).2.1⟩
    rcases h.results with hd' | ⟨_, _, _, _, _, _, _, _, -, -, hc, -⟩ | ⟨_, _, _, _, _, -, hc⟩
    · rw [hd']
      exact ⟨hd.results, hd.resultRuns⟩
    · obtain ⟨ob, -, hd'⟩ := hc.effect
      rw [hd']
      exact free hc.free
    · obtain ⟨ob, -, hd'⟩ := hc.effect
      rw [hd']
      exact free hc.free
  exact ⟨h.runIds hd.runs, hm.1, hm.2, hr.1, hr.2⟩

/-! ## Lookups -/

theorem Db.Keyed.ownRun (hd : d.Keyed) {r : Run} (hr : r ∈ d.runs) :
    d.ownRun r.runId r.ownerId = some r :=
  hd.runs.find? hr (by simp) fun o _ ho => by
    simp only [Bool.and_eq_true, decide_eq_true_eq] at ho
    exact ho.1

theorem Db.Keyed.manifestOf (hd : d.Keyed) {m : Manifest} (hm : m ∈ d.manifests) :
    d.manifestOf m.runId = some m :=
  hd.manifestRuns.find? hm (by simp) fun o _ ho => of_decide_eq_true ho

/-- a change that does not record a completeness leaves the flags that facts read. -/
theorem Change.incompleteFlag (h : Change C K w k d d') (hk : k ≠ .recorded) (hd : d.Keyed)
    (runId ownerId : Uuid) : d'.incompleteFlag runId ownerId = d.incompleteFlag runId ownerId := by
  have hd' := h.keyed hd
  unfold Db.incompleteFlag
  rcases hr : d.ownRun runId ownerId with _ | r
  · rcases hr' : d'.ownRun runId ownerId with _ | r'
    · rfl
    · obtain ⟨hmem, h1, h2⟩ := ownRun_some hr'
      rcases h.run_origin hd.runs hmem with ⟨r, hold, hm⟩ | ⟨-, -, hflag, -⟩
      · have := hd.ownRun hold
        rw [← hm.runId, ← hm.ownerId, h1, h2, hr] at this
        cases this
      · simp [hflag]
  · obtain ⟨hmem, h1, h2⟩ := ownRun_some hr
    obtain ⟨r', hmem', hm⟩ := h.run_kept hd.runs hmem
    have := hd'.ownRun hmem'
    rw [hm.runId, hm.ownerId, h1, h2] at this
    rw [this]
    simp [hm.flag hk]

/-- the two rows that a settlement reads before its transaction are evidence in every later
state. -/
theorem durable_evidence {d : Db} {runId ownerId : Uuid} {r : Run} {mf : Manifest}
    (h : d.durable runId ownerId = some (r, mf)) :
    d.ownRun runId ownerId = some r ∧ d.evidence runId ownerId mf.sha256 (· = mf) := by
  unfold Db.durable at h
  obtain ⟨r', hr', h⟩ := Option.bind_eq_some_iff.mp h
  obtain ⟨mf', hmf', h⟩ := Option.bind_eq_some_iff.mp h
  split_ifs at h with ho
  cases h
  exact ⟨hr', mf, List.mem_of_find?_eq_some hmf', by simpa using List.find?_some hmf', ho, rfl, rfl⟩

/-- the evidence of a manifest stays when it does not look at the text. -/
theorem Change.evidence (h : Change C K w k d d') {runId ownerId : Uuid} {sha : Digest}
    {p : Manifest → Prop} (hp : ∀ {m m'}, ManifestMoves m m' → p m → p m')
    (hev : d.evidence runId ownerId sha p) : d'.evidence runId ownerId sha p := by
  obtain ⟨m, hm, h1, h2, h3, h4⟩ := hev
  obtain ⟨m', hm', hmove⟩ := h.manifest_kept hm
  exact ⟨m', hm', hmove.runId.trans h1, hmove.ownerId.trans h2, hmove.sha256.trans h3, hp hmove h4⟩

theorem RecapCompleted.countsAgree_moves {fact : RecapCompleted} {m m' : Manifest}
    (h : ManifestMoves m m') (hc : fact.countsAgree m) : fact.countsAgree m' :=
  ⟨hc.1.trans h.counts.1.symm, by rw [h.counts.2]; exact hc.2⟩

theorem Evolves.keyed {p : Kind → Prop} (h : Evolves C K w p d d') (hd : d.Keyed) : d'.Keyed :=
  h.keeps (fun _ hc => hc.keyed) hd

end

end ChannelDigests
