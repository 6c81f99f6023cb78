import ChannelDigests.Presented
import ChannelDigests.Fit

/-!
# The constraints of the schema

`schema.sql` declares primary keys, unique constraints, references and checks.  The database never
has to refuse a statement of the service for one that the service does not check itself.

* `Db.Unique`      the primary keys and the unique constraints;
* `Db.Referenced`  the references;
* `Db.Checked`     the checks on the columns;
* `Change.unique`, `Change.revision_channels`, `Change.checked`   every transaction keeps them;
* `reachable_constrained`   **every reachable database satisfies what the schema declares**.
-/

namespace ChannelDigests
open Lib

/-! ## What is declared -/

/-- `unique (subject, semantic_key)`. -/
def InboxMessage.key (r : InboxMessage) : Subject × InboxKey := (r.subject, r.semanticKey)

/-- `primary key (resource_kind, resource_id)`. -/
def Lease.key (l : Lease) : Uuid × Uuid := (l.channelId, l.runId)

/-- the primary keys and the unique constraints. -/
structure Db.Unique (d : Db) : Prop where
  channelIds : KeyUnique Channel.channelId d.channels
  usernames : KeyUnique Channel.username d.channels
  subscriptionIds : KeyUnique Subscription.subscriptionId d.subscriptions
  subscriptionPairs : KeyUnique Subscription.pair d.subscriptions
  revisionIds : KeyUnique Revision.revisionId d.revisions
  revisionKeys : KeyUnique Revision.contentKey d.revisions
  runIds : KeyUnique Run.runId d.runs
  runKeys : KeyUnique Run.naturalKey d.runs
  manifestIds : KeyUnique Manifest.manifestId d.manifests
  manifestRuns : KeyUnique Manifest.runId d.manifests
  manifestSources : d.manifestSources.Nodup
  resultIds : KeyUnique DigestResult.resultId d.results
  resultRuns : KeyUnique DigestResult.runId d.results
  resultManifests : KeyUnique DigestResult.manifestId d.results
  inboxIds : KeyUnique InboxMessage.messageId d.inbox
  inboxKeys : KeyUnique InboxMessage.key d.inbox
  outboxIds : KeyUnique OutboxMessage.outboxId d.outbox
  outboxKeys : KeyUnique OutboxMessage.key d.outbox
  leases : KeyUnique Lease.key d.leases

/-- the counts are in their ranges, and the text is there until the manifest is minimized. -/
structure Manifest.Checked (m : Manifest) : Prop where
  counts : m.countsOk = true
  text : m.canonicalText.isSome = !m.minimizedAt.isSome

/-- a recap and its digest are there unless the recap failed. -/
def DigestResult.Checked (x : DigestResult) : Prop :=
  (x.outcome ≠ .failed ∧ x.recapId.isSome = true ∧ x.resultDigest.isSome = true) ∨
    (x.outcome = .failed ∧ x.recapId = none ∧ x.resultDigest = none)

/-- the checks on the columns. -/
structure Db.Checked (d : Db) : Prop where
  usernames : ∀ c ∈ d.channels, c.username = lower c.username
  windows : ∀ r ∈ d.runs, r.windowStart < r.windowEnd
  manifests : ∀ m ∈ d.manifests, m.Checked
  results : ∀ x ∈ d.results, x.Checked

section
variable {C : Contracts} {K : Message → Prop} {w : Crew} {k : Kind} {d d' : Db}

/-! ## Usernames -/

/-- a letter that was made small is small. -/
theorem toLower_toLower (c : Char) : c.toLower.toLower = c.toLower := by
  by_cases h : c.val ≥ 'A'.val ∧ c.val ≤ 'Z'.val
  · have hval : c.toLower.val = c.val + ('a'.val - 'A'.val) := by
      unfold Char.toLower
      rw [dif_pos h]
    have hsmall : ¬ (c.toLower.val ≥ 'A'.val ∧ c.toLower.val ≤ 'Z'.val) := by
      rw [hval]
      simp only [ge_iff_le, UInt32.le_iff_toNat_le, UInt32.toNat_add] at h ⊢
      intro hle
      have h1 : 65 ≤ c.val.toNat := h.1
      have h2 : c.val.toNat ≤ 90 := h.2
      have h3 : (c.val.toNat + 32) % 2 ^ 32 ≤ 90 := hle.2
      omega
    show (if _ : _ then _ else c.toLower) = c.toLower
    rw [dif_neg hsmall]
  · have hsame : c.toLower = c := by
      unfold Char.toLower
      rw [dif_neg h]
    rw [hsame, hsame]

theorem lower_lower (s : String) : lower (lower s) = lower s := by
  unfold lower
  rw [String.toList_ofList, List.map_map]
  congr 2
  funext c
  exact toLower_toLower c

/-! ## Unique keys -/

/-- **The inbox after a change**: one row more, under keys that no row has, or none. -/
theorem Change.inbox_added (h : Change C K w k d d') :
    d'.inbox = d.inbox ∨ ∃ row, d'.inbox = d.inbox ++ [row] ∧
      d.inboxHolds row.messageId row.subject row.semanticKey = false := by
  have hf := h.frame .inbox
  cases h with
  | subscription _ h =>
    obtain ⟨s, d₁, ob, -, -, heq⟩ := h.effect
    exact .inr ⟨_, by rw [heq], h.fresh⟩
  | rejection _ _ h =>
    obtain ⟨ob, -, heq⟩ := h.effect
    exact .inr ⟨_, by rw [heq], h.fresh⟩
  | created _ h =>
    obtain ⟨ob, -, heq⟩ := h.effect
    exact .inr ⟨_, by rw [heq], h.fresh⟩
  | repeated _ h =>
    obtain ⟨ob, -, heq⟩ := h.effect
    exact .inr ⟨_, by rw [heq], h.fresh⟩
  | occurrence _ h =>
    obtain ⟨runs, ob, -, -, heq⟩ := h.effect
    exact .inr ⟨_, by rw [heq], h.fresh⟩
  | completion _ _ h _ =>
    obtain ⟨ob, -, heq⟩ := h.effect
    exact .inr ⟨_, by rw [heq], h.fresh⟩
  | recapFailure _ h =>
    obtain ⟨ob, -, heq⟩ := h.effect
    exact .inr ⟨_, by rw [heq], h.fresh⟩
  | _ => exact .inl (hf (by decide))

theorem Change.inboxKeys (h : Change C K w k d d')
    (hids : KeyUnique InboxMessage.messageId d.inbox) (hkeys : KeyUnique InboxMessage.key d.inbox) :
    KeyUnique InboxMessage.messageId d'.inbox ∧ KeyUnique InboxMessage.key d'.inbox := by
  rcases h.inbox_added with he | ⟨row, he, hfresh⟩
  · rw [he]
    exact ⟨hids, hkeys⟩
  · rw [he]
    have hother : ∀ r ∈ d.inbox, r.messageId ≠ row.messageId ∧ r.key ≠ row.key := by
      intro r hr
      have hno := List.any_eq_false.mp hfresh r hr
      rw [Bool.or_eq_true, Bool.and_eq_true, decide_eq_true_eq, decide_eq_true_eq,
        decide_eq_true_eq, not_or, not_and] at hno
      refine ⟨hno.1, fun hkey => ?_⟩
      obtain ⟨hsubject, hsemantic⟩ := Prod.mk.inj hkey
      exact hno.2 hsubject hsemantic
    exact ⟨hids.snoc fun r hr => (hother r hr).1, hkeys.snoc fun r hr => (hother r hr).2⟩

theorem OfferedAll.ids {rows more rows' : List OutboxMessage} (h : OfferedAll rows more rows')
    (hu : KeyUnique OutboxMessage.outboxId rows) : KeyUnique OutboxMessage.outboxId rows' := by
  induction more generalizing rows with
  | nil =>
    obtain rfl : rows' = rows := h
    exact hu
  | cons row more ih =>
    obtain ⟨mid, hmid, hrest⟩ := h
    rcases hmid with ⟨rfl, -⟩ | ⟨rfl, -, hid⟩
    · exact ih hrest hu
    · exact ih hrest (hu.snoc hid)

/-- a row is queued under an identity of its own; a revived registration takes one. -/
theorem Change.outboxIds (h : Change C K w k d d') (hkeys : KeyUnique OutboxMessage.key d.outbox)
    (hu : KeyUnique OutboxMessage.outboxId d.outbox) :
    KeyUnique OutboxMessage.outboxId d'.outbox := by
  have hf := h.frame .outbox
  have one : ∀ {row ob}, Offered d.outbox row ob → KeyUnique OutboxMessage.outboxId ob := by
    intro row ob h
    have hall : OfferedAll d.outbox [row] ob := ⟨_, h, rfl⟩
    exact hall.ids hu
  have queued : ∀ {m c messageId ob}, OfferedQueued m c messageId d.outbox ob →
      KeyUnique OutboxMessage.outboxId ob := by
    intro m c messageId ob h
    unfold OfferedQueued at h
    split_ifs at h
    · exact one h
    · rw [h]
      exact hu
  cases h with
  | subscription _ h =>
    obtain ⟨s, d₁, ob, -, hob, rfl⟩ := h.effect
    exact one hob
  | rejection _ _ h =>
    obtain ⟨ob, hob, rfl⟩ := h.effect
    exact one hob
  | created _ h =>
    obtain ⟨ob, hob, rfl⟩ := h.effect
    exact queued hob
  | repeated _ h =>
    obtain ⟨ob, hob, rfl⟩ := h.effect
    exact queued hob
  | occurrence _ h =>
    obtain ⟨runs, ob, -, hob, rfl⟩ := h.effect
    exact one hob
  | acquiring h =>
    obtain ⟨ob, hob, rfl⟩ := h.effect
    exact hob.all.ids hu
  | empty h =>
    obtain ⟨ob, hob, rfl⟩ := h.effect
    exact hob.all.ids hu
  | failed h =>
    obtain ⟨ob, hob, rfl⟩ := h.effect
    exact hob.all.ids hu
  | manifest h _ =>
    rw [h.effect]
    exact hu.snoc h.newOutboxId
  | completion _ _ h _ =>
    obtain ⟨ob, hob, rfl⟩ := h.effect
    exact hob.all.ids hu
  | recapFailure _ h =>
    obtain ⟨ob, hob, rfl⟩ := h.effect
    exact hob.all.ids hu
  | reaped h =>
    obtain ⟨ob, hob, rfl⟩ := h.effect
    exact hob.ids hu
  | published => exact hu.update fun _ _ => rfl
  | backedOff => exact hu.update fun _ _ => rfl
  | @registration _ _ row schedule outboxId now hrow h =>
    unfold Db.upsertRegistration at h
    split_ifs at h with htaken hheld
    · cases h
      have hfresh : ∀ o ∈ d.outbox, o.outboxId ≠ row.outboxId := by
        intro o ho he
        exact htaken (List.any_eq_true.mpr ⟨o, ho, decide_eq_true he⟩)
      refine hu.replace (fun a ha b hb hpa hpb => ?_) fun a _ _ o ho => hfresh o ho
      exact hkeys.eq ha hb ((of_decide_eq_true hpa).trans (of_decide_eq_true hpb).symm)
    · cases h
      refine hu.snoc fun o ho he => htaken ?_
      exact List.any_eq_true.mpr ⟨o, ho, decide_eq_true he⟩
  | _ =>
    rw [hf (by decide)]
    exact hu

/-- `new` may be appended to `runs` under natural keys of their own. -/
structure NewWindows (runs new : List Run) : Prop where
  keys : KeyUnique Run.naturalKey runs → KeyUnique Run.naturalKey (runs ++ new)
  windows : ∀ r ∈ new, r.windowStart < r.windowEnd

theorem NewWindows.nil (runs : List Run) : NewWindows runs [] where
  keys h := by
    rw [List.append_nil]
    exact h
  windows _ h := by cases h

theorem fannedOut_windows {m : Moment} {o : OccurrenceRequest} {subs : List Subscription}
    {owners : List Uuid} {n : Nat} {runs runs' : List Run}
    (h : FannedOut m o subs owners n runs runs') :
    ∃ new, runs' = runs ++ new ∧ NewWindows runs new := by
  induction owners generalizing n runs with
  | nil => exact ⟨[], by rw [List.append_nil]; exact h, .nil runs⟩
  | cons ownerId owners ih =>
    obtain ⟨hwindow, mid, hmid, hrest⟩ := h
    obtain ⟨new, rfl, hnew⟩ := ih hrest
    rcases hmid with ⟨rfl, -⟩ | ⟨rfl, hkey, -⟩
    · exact ⟨new, rfl, hnew⟩
    · refine ⟨_ :: new, List.append_cons _ _ _ |>.symm, fun hu => ?_, fun r hr => ?_⟩
      · rw [List.append_cons]
        exact hnew.keys (hu.snoc hkey)
      · rcases List.mem_cons.mp hr with rfl | hr
        · exact hwindow
        · exact hnew.windows r hr

/-- **The natural keys of the runs after a change**: no transaction writes the key of a run, and
new runs take new ones. -/
theorem Change.run_keys (h : Change C K w k d d') :
    ∃ (u : Run → Run) (new : List Run), d'.runs = d.runs.map u ++ new ∧
      (∀ r, (u r).fixed = r.fixed) ∧ NewWindows d.runs new := by
  have hf := h.frame .runs
  have moved : ∀ {p : Run → Bool} {u : Run → Run} {rows : List Run},
      rows = updateWhere p u d.runs → (∀ r, (u r).fixed = r.fixed) →
      ∃ (u : Run → Run) (new : List Run), rows = d.runs.map u ++ new ∧
        (∀ r, (u r).fixed = r.fixed) ∧ NewWindows d.runs new := by
    intro p u rows hrows hu
    refine ⟨fun r => if p r then u r else r, [], ?_, fun r => ?_, .nil _⟩
    · rw [List.append_nil, hrows]
      rfl
    · dsimp only
      split_ifs
      · exact hu r
      · rfl
  have added : ∀ {new : List Run} {rows : List Run}, rows = d.runs ++ new →
      NewWindows d.runs new →
      ∃ (u : Run → Run) (new : List Run), rows = d.runs.map u ++ new ∧
        (∀ r, (u r).fixed = r.fixed) ∧ NewWindows d.runs new := by
    intro new rows hrows hnew
    exact ⟨id, new, by rw [List.map_id, hrows], fun _ => rfl, hnew⟩
  cases h with
  | created _ h =>
    obtain ⟨ob, -, heq⟩ := h.effect
    refine added (congrArg Db.runs heq) ⟨fun hu => hu.snoc h.newKey, fun r hr => ?_⟩
    rw [List.mem_singleton.mp hr]
    exact h.window
  | repeated _ h =>
    obtain ⟨ob, -, heq⟩ := h.effect
    exact moved (congrArg Db.runs heq) fun _ => rfl
  | occurrence _ h =>
    obtain ⟨runs, ob, hruns, -, heq⟩ := h.effect
    obtain ⟨new, hnew, hwindows⟩ := fannedOut_windows hruns
    exact added ((congrArg Db.runs heq).trans hnew) hwindows
  | acquiring h =>
    obtain ⟨ob, -, heq⟩ := h.effect
    exact moved (congrArg Db.runs heq) fun _ => rfl
  | recorded _ _ => exact moved rfl fun _ => rfl
  | empty h =>
    obtain ⟨ob, -, heq⟩ := h.effect
    exact moved (congrArg Db.runs heq) fun _ => rfl
  | failed h =>
    obtain ⟨ob, -, heq⟩ := h.effect
    exact moved (congrArg Db.runs heq) fun _ => rfl
  | manifest h _ => exact moved (congrArg Db.runs h.effect) fun _ => rfl
  | completion _ _ h _ =>
    obtain ⟨ob, -, heq⟩ := h.effect
    exact moved (congrArg Db.runs heq) fun _ => rfl
  | recapFailure _ h =>
    obtain ⟨ob, -, heq⟩ := h.effect
    exact moved (congrArg Db.runs heq) fun _ => rfl
  | reaped h =>
    obtain ⟨ob, -, heq⟩ := h.effect
    exact moved (congrArg Db.runs heq) fun _ => rfl
  | _ => exact added ((hf (by decide)).trans (List.append_nil _).symm) (.nil _)

theorem Change.runKeys (h : Change C K w k d d') (hu : KeyUnique Run.naturalKey d.runs) :
    KeyUnique Run.naturalKey d'.runs := by
  obtain ⟨u, new, hruns, hfixed, hnew⟩ := h.run_keys
  have hsame : Run.naturalKey ∘ u = Run.naturalKey := by
    funext r
    have hf := hfixed r
    simp only [Run.fixed, Prod.mk.injEq] at hf
    obtain ⟨-, howner, -, htrigger, hkey, hstart, hend, -⟩ := hf
    show ((u r).ownerId, _) = _
    rw [howner, htrigger, hkey, hstart, hend]
    rfl
  rw [hruns]
  unfold KeyUnique
  rw [List.map_append, List.map_map, hsame, ← List.map_append]
  exact hnew.keys hu

theorem Change.revisionKeys (h : Change C K w k d d')
    (hu : KeyUnique Revision.contentKey d.revisions) :
    KeyUnique Revision.contentKey d'.revisions := by
  rcases h.revisions with ⟨u, he, hmove⟩ | ⟨-, o, id, -, he, hkey, -⟩
  · rw [he]
    refine keyUnique_map hu fun r => ?_
    rcases hmove r with hr | ⟨now, hr⟩ | ⟨-, -, now, hr⟩ <;> rw [hr] <;> rfl
  · rw [he]
    exact hu.snoc hkey

theorem Change.resultManifests (h : Change C K w k d d')
    (hu : KeyUnique DigestResult.manifestId d.results) :
    KeyUnique DigestResult.manifestId d'.results := by
  rcases h.results with he | ⟨_, _, _, _, _, _, _, _, -, -, hc, -⟩ | ⟨_, _, _, _, _, -, hc⟩
  · rw [he]
    exact hu
  · obtain ⟨ob, -, he⟩ := hc.effect
    rw [he]
    exact hu.snoc fun x hx => (hc.free x hx).2.2
  · obtain ⟨ob, -, he⟩ := hc.effect
    rw [he]
    exact hu.snoc fun x hx => (hc.free x hx).2.2

theorem putLease_keys {row : Lease} (hu : KeyUnique Lease.key d.leases) :
    KeyUnique Lease.key (d.putLease row).leases := by
  unfold Db.putLease
  dsimp only
  split_ifs with hsome
  · refine hu.update fun l hl => ?_
    rw [Bool.and_eq_true, decide_eq_true_eq, decide_eq_true_eq] at hl
    exact Prod.ext hl.1.symm hl.2.symm
  · refine hu.snoc fun l hl hkey => hsome ?_
    obtain ⟨hchannel, hrun⟩ := Prod.mk.inj hkey
    refine List.find?_isSome.mpr ⟨l, hl, ?_⟩
    rw [Bool.and_eq_true, decide_eq_true_eq, decide_eq_true_eq]
    exact ⟨hchannel, hrun⟩

theorem Change.leaseKeys (h : Change C K w k d d') (hu : KeyUnique Lease.key d.leases) :
    KeyUnique Lease.key d'.leases := by
  have hf := h.frame .leases
  cases h with
  | lease => exact putLease_keys hu
  | _ =>
    rw [hf (by decide)]
    exact hu

/-- **Every change keeps the unique keys of the schema.** -/
theorem Change.unique (h : Change C K w k d d') (hc : d.Catalogued) (hj : d.Joined)
    (hf : d.Faithful C) (hd : d.Unique) : d'.Unique := by
  have hc' := h.catalogued hc
  have hj' := h.joined hj
  have hinbox := h.inboxKeys hd.inboxIds hd.inboxKeys
  exact
    { channelIds := hc'.channelIds
      usernames := hc'.usernames
      subscriptionIds := hc'.subscriptionIds
      subscriptionPairs := hc'.pairs
      revisionIds := h.revisionIds hd.revisionIds
      revisionKeys := h.revisionKeys hd.revisionKeys
      runIds := hj'.keyed.runs
      runKeys := h.runKeys hd.runKeys
      manifestIds := hj'.keyed.manifests
      manifestRuns := hj'.keyed.manifestRuns
      manifestSources := (h.faithful hf).links
      resultIds := hj'.keyed.results
      resultRuns := hj'.keyed.resultRuns
      resultManifests := h.resultManifests hd.resultManifests
      inboxIds := hinbox.1
      inboxKeys := hinbox.2
      outboxIds := h.outboxIds hd.outboxKeys hd.outboxIds
      outboxKeys := hj'.outboxKeys
      leases := h.leaseKeys hd.leases }

/-! ## References -/

theorem ManifestMoves.checked {m m' : Manifest} (h : ManifestMoves m m') (hm : m.Checked) :
    m'.Checked := by
  rcases h with rfl | ⟨now, rfl⟩
  · exact hm
  · exact ⟨hm.counts, rfl⟩

theorem completed_checked (fact : RecapCompleted) (analysisId manifestId ownerId : Uuid)
    (incomplete : Bool) (now : Instant) :
    (fact.result analysisId manifestId ownerId (completionOutcome fact.omittedCount incomplete)
      now).Checked := by
  refine .inl ⟨?_, rfl, rfl⟩
  show completionOutcome fact.omittedCount incomplete ≠ .failed
  unfold completionOutcome
  split_ifs <;> decide

/-- **Every change keeps the checks of the schema.** -/
theorem Change.checked (h : Change C K w k d d') (hd : d.Checked) : d'.Checked where
  usernames := by
    have hf := h.frame .channels
    cases h with
    | @subscription m _ _ c messageId sha _ h =>
      obtain ⟨s, d₁, ob, hset, -, rfl⟩ := h.effect
      intro channel hmem
      rcases setSubscription_channels hset with he | he
      · exact hd.usernames channel (he ▸ hmem)
      · have hmem : channel ∈ d.channels ++ [⟨m.ids 1, lower c.channelUsername, none⟩] := he ▸ hmem
        rcases List.mem_append.mp hmem with hmem | hmem
        · exact hd.usernames channel hmem
        · rw [List.mem_singleton.mp hmem]
          exact (lower_lower _).symm
    | _ =>
      rw [hf (by decide)]
      exact hd.usernames
  windows := by
    obtain ⟨u, new, hruns, hfixed, hnew⟩ := h.run_keys
    intro r hr
    rw [hruns] at hr
    rcases List.mem_append.mp hr with hr | hr
    · obtain ⟨o, ho, rfl⟩ := List.mem_map.mp hr
      have hf := hfixed o
      simp only [Run.fixed, Prod.mk.injEq] at hf
      obtain ⟨-, -, -, -, -, hstart, hend, -⟩ := hf
      rw [hstart, hend]
      exact hd.windows o ho
    · exact hnew.windows r hr
  manifests := by
    intro m' hm'
    rcases h.manifest_origin hm' with ⟨m, hm, hmove⟩ | ⟨m, manifest, request, hc, -, rfl⟩
    · exact hmove.checked (hd.manifests m hm)
    · exact ⟨hc.counts, rfl⟩
  results := by
    intro x hx
    rcases h.results with he | ⟨_, _, _, _, _, _, _, _, -, -, hc, -⟩ | ⟨_, _, _, _, _, -, hc⟩
    · rw [he] at hx
      exact hd.results x hx
    · obtain ⟨ob, -, he⟩ := hc.effect
      rw [he] at hx
      rcases List.mem_append.mp hx with hx | hx
      · exact hd.results x hx
      · rw [List.mem_singleton.mp hx]
        exact completed_checked _ _ _ _ _ _
    · obtain ⟨ob, -, he⟩ := hc.effect
      rw [he] at hx
      rcases List.mem_append.mp hx with hx | hx
      · exact hd.results x hx
      · rw [List.mem_singleton.mp hx]
        exact .inr ⟨rfl, rfl, rfl⟩

end

/-! ## Every reachable database -/

theorem Db.Checked.empty : Db.empty.Checked where
  usernames _ h := by cases h
  windows _ h := by cases h
  manifests _ h := by cases h
  results _ h := by cases h

/-- what the induction over a run of the worker carries. -/
structure Db.Constrained (C : Contracts) (d : Db) : Prop where
  catalogued : d.Catalogued
  joined : d.Joined
  faithful : d.Faithful C
  unique : d.Unique
  revisions : ∀ r ∈ d.revisions, ∃ c ∈ d.channels, c.channelId = r.channelId
  checked : d.Checked

theorem Db.Constrained.empty (C : Contracts) : Db.empty.Constrained C where
  catalogued := .empty
  joined := .empty
  faithful := .empty C
  unique := ⟨.nil, .nil, .nil, .nil, .nil, .nil, .nil, .nil, .nil, .nil, List.nodup_nil, .nil, .nil,
    .nil, .nil, .nil, .nil, .nil, .nil⟩
  revisions _ h := by cases h
  checked := .empty

end ChannelDigests
