import ChannelDigests.ReadChannels
import ChannelDigests.Refinement
import ChannelDigests.Window
import ChannelDigests.Lib.Alike
import Mathlib.Logic.Equiv.List

/-!
# Acquired texts build

What acquisition stores is what the manifest builder checks: the digest and the link of a text are
written by the walk and computed again by the builder, and the limits of the builder are those of
the walk, of the subscriptions and of the source cap.

* `ContractManifest.WithinLimits`   what the contract asks of a manifest;
* `Contracts.AcceptsManifests`      the contract accepts what it asks for;
* `Db.Sourced`         digests, sizes and links of the stored texts, with the catalogue;
* `Db.Sourced.builds`  a selection that is not empty builds;
* `Upholds`            what every step of the worker keeps of this;
* `tick_upholds`       **a tick keeps it**: the walks store what the builder checks, and nothing
                       fails as unbuildable;
* `reachable_builds`   **acquired texts always build**.
-/

namespace ChannelDigests
open Lib Prog

/-! ## The contract -/

/-- a non-empty list of distinct, ordered sources of the window, within the limits. -/
structure ContractManifest.WithinLimits (C : Contracts) (m : ContractManifest) : Prop where
  window : m.windowStart < m.windowEnd
  nonempty : m.sources ≠ []
  sources : m.sources.length ≤ maxSources
  channels : (m.sources.map (·.channelRef)).dedup.length ≤ maxChannels
  contents : ∀ s ∈ m.sources, 0 < s.content.utf8ByteSize ∧ s.content.utf8ByteSize ≤ maxContentBytes
  digests : ∀ s ∈ m.sources, s.contentDigest = C.textDigest s.content
  distinct : (m.sources.map fun s => (s.channelRef, s.messageId)).Nodup
  ordered : m.sources.Pairwise fun a b => orderKey a ≤ orderKey b
  inWindow : ∀ s ∈ m.sources, m.windowStart ≤ s.publishedAt ∧ s.publishedAt < m.windowEnd

/-- what the service relies on: a window is a start before its end, an instant in whole seconds is
a timestamp, and every manifest within the limits is encoded. -/
structure Contracts.AcceptsManifests (C : Contracts) : Prop where
  window : ∀ {windowStart windowEnd}, windowStart < windowEnd →
    C.digestWindow windowStart windowEnd = true
  timestamp : ∀ t, C.wireTimestamp (wholeSecond t) = true
  manifest : ∀ m : ContractManifest, m.WithinLimits C → (C.canonicalText m).isSome = true

/-! ## Stored texts -/

/-- the text has the stored digest and an allowed size, and the link is that of its channel. -/
structure Revision.Sourced (C : Contracts) (channels : List Channel) (r : Revision) : Prop where
  digest : ∀ body, r.body = some body → r.contentSha256 = C.textDigest body
  size : ∀ body, r.body = some body →
    0 < body.utf8ByteSize ∧ body.utf8ByteSize ≤ maxContentBytes
  link : ∃ c ∈ channels, c.channelId = r.channelId ∧
    r.canonicalLink = publicLink c.username r.messageId

/-- every stored revision is what a walk stores. -/
structure Db.Sourced (C : Contracts) (d : Db) : Prop where
  catalogued : d.Catalogued
  revisionIds : KeyUnique Revision.revisionId d.revisions
  texts : ∀ r ∈ d.revisions, r.Sourced C d.channels

theorem Db.Sourced.empty (C : Contracts) : Db.empty.Sourced C :=
  ⟨.empty, .nil, fun _ h => by cases h⟩

section
variable {C : Contracts} {K : Message → Prop} {w : Crew} {k : Kind} {d d' : Db}

theorem Revision.Sourced.kept {channels channels' : List Channel} {r : Revision}
    (h : r.Sourced C channels) (hk : ∀ c ∈ channels, c ∈ channels') : r.Sourced C channels' where
  digest := h.digest
  size := h.size
  link := by
    obtain ⟨c, hc, hl⟩ := h.link
    exact ⟨c, hk c hc, hl⟩

/-- a text may be dropped. -/
theorem Revision.Sourced.moves {channels : List Channel} {r r' : Revision}
    (h : r.Sourced C channels) (hm : RevisionMoves k r r') : r'.Sourced C channels := by
  rcases hm with rfl | ⟨now, rfl⟩ | ⟨-, -, now, rfl⟩
  · exact h
  · exact ⟨fun _ hb => (by cases hb), fun _ hb => (by cases hb), h.link⟩
  · exact ⟨fun _ hb => (by cases hb), fun _ hb => (by cases hb), h.link⟩

/-- every change but an append keeps the stored texts sourced. -/
theorem Change.sourced (h : Change C K w k d d') (hk : k ≠ .append) (hd : d.Sourced C) :
    d'.Sourced C := by
  rcases h.revisions with ⟨u, hr, hu⟩ | ⟨rfl, -⟩
  · refine ⟨h.catalogued hd.catalogued, ?_, fun r' hr' => ?_⟩
    · rw [hr]
      exact keyUnique_map hd.revisionIds fun r => (hu r).revisionId
    · rw [hr] at hr'
      obtain ⟨r, hmem, rfl⟩ := List.mem_map.mp hr'
      exact ((hd.texts r hmem).moves (hu r)).kept fun c hc => h.channelsGrow.kept hc
  · exact absurd rfl hk

/-- a step of a call for a stored channel does, too. -/
theorem CallStep.sourced {request : AcquisitionRequest} (hs : CallStep C request d d')
    (hn : d.names request) (hd : d.Sourced C) : d'.Sourced C := by
  cases hs with
  | lease at_ state wait holder now => exact ⟨hd.catalogued.same rfl rfl, hd.revisionIds, hd.texts⟩
  | append post published revisionId ht ha =>
    rcases appendRevision_some ha with ⟨rfl, -⟩ | ⟨rfl, -, hid⟩
    · exact hd
    · refine ⟨hd.catalogued.same rfl rfl, hd.revisionIds.snoc hid, fun r hr => ?_⟩
      rcases List.mem_append.mp hr with hr | hr
      · exact hd.texts r hr
      · obtain rfl := List.mem_singleton.mp hr
        have hstorable := ht.1
        simp only [ProviderPost.storable, Bool.not_eq_true', Bool.or_eq_false_iff,
          decide_eq_false_iff_not, not_lt] at hstorable
        obtain ⟨c, hc, hid, hname⟩ := hn
        refine ⟨?_, ?_, c, hc, hid, hname ▸ rfl⟩
        · rintro _ ⟨⟩
          rfl
        · rintro _ ⟨⟩
          exact ⟨Nat.pos_of_ne_zero hstorable.1.2, hstorable.2⟩
  | withdrawal g now =>
    refine ⟨hd.catalogued.same rfl rfl, hd.revisionIds.update fun _ _ => rfl, fun r' hr' => ?_⟩
    obtain ⟨r, hr, ⟨-, rfl⟩ | ⟨-, rfl⟩⟩ := mem_updateWhere.mp hr'
    · exact ⟨fun _ hb => (by cases hb), fun _ hb => (by cases hb), (hd.texts r hr).link⟩
    · exact hd.texts _ hr

end

/-! ## Whole seconds -/

theorem wholeSecond_eq (t : Instant) : wholeSecond t = second * (t / second) := by
  unfold wholeSecond
  rw [Int.emod_def, Int.sub_sub_self]

theorem wholeSecond_mono {a b : Instant} (h : a ≤ b) : wholeSecond a ≤ wholeSecond b := by
  rw [wholeSecond_eq, wholeSecond_eq]
  exact Int.mul_le_mul_of_nonneg_left (Int.ediv_le_ediv second_pos h) second_pos.le

theorem wholeSecond_idem (t : Instant) : wholeSecond (wholeSecond t) = wholeSecond t := by
  rw [wholeSecond_eq (wholeSecond t), wholeSecond_eq t,
    Int.mul_ediv_cancel_left _ second_pos.ne']

/-! ## The builder -/

section
variable {C : Contracts} {d : Db} {run : PendingRun}

/-- the builder accepts the source, if it accepts each part. -/
theorem contractSource_isOk {source : ManifestSource}
    (hsize : source.body.utf8ByteSize ≤ maxContentBytes)
    (hlink : source.canonicalLink = publicLink source.channelUsername source.messageId)
    (hdigest : source.contentSha256 = C.textDigest source.body)
    (htime : C.wireTimestamp source.publishedAt = true) :
    ∃ s, contractSource C source = .ok s := by
  unfold contractSource
  rw [if_neg (not_lt.mpr hsize), if_neg (by rw [not_or, not_not, not_not]; exact ⟨hlink, hdigest⟩),
    if_neg (by rw [htime]; decide)]
  exact ⟨_, rfl⟩

/-- what an accepted source says. -/
theorem contractSource_content {source : ManifestSource} {s : ContractSource}
    (h : contractSource C source = .ok s) :
    s.publishedAt = source.publishedAt ∧ s.content = source.body ∧
      s.contentDigest = C.textDigest source.body := by
  unfold contractSource at h
  split_ifs at h
  cases h
  exact ⟨rfl, rfl, rfl⟩

/-- the builder accepts the list, if it accepts each source. -/
theorem mapM_contractSource_isOk {sources : List ManifestSource}
    (h : ∀ source ∈ sources, ∃ s, contractSource C source = .ok s) :
    ∃ selected, sources.mapM (contractSource C) = .ok selected := by
  induction sources with
  | nil => exact ⟨[], rfl⟩
  | cons source sources ih =>
    obtain ⟨s, hs⟩ := h source List.mem_cons_self
    obtain ⟨rest, hrest⟩ := ih fun o ho => h o (List.mem_cons_of_mem _ ho)
    rw [List.mapM_cons, hs, hrest]
    exact ⟨s :: rest, rfl⟩

/-- a manifest within the limits is built. -/
theorem build_isOk (hC : C.AcceptsManifests) {manifestId ownerId runId : Uuid}
    {windowStart windowEnd : Instant} {sources : List ManifestSource}
    {selected : List ContractSource} (hlength : sources.length ≤ maxSources)
    (hchannels : channelCountOf sources ≤ maxChannels)
    (hstart : C.wireTimestamp windowStart = true) (hend : C.wireTimestamp windowEnd = true)
    (hsel : sources.mapM (contractSource C) = .ok selected)
    (hm : ContractManifest.WithinLimits C
      { manifestRef := manifestId
        owner := ownerId
        digestRunId := runId
        windowStart
        windowEnd
        sources := selected.insertionSort fun a b => orderKey a ≤ orderKey b }) :
    ∃ manifest, build C manifestId ownerId runId windowStart windowEnd sources = .ok manifest := by
  obtain ⟨text, htext⟩ := Option.isSome_iff_exists.mp (hC.manifest _ hm)
  unfold build
  rw [if_neg (not_lt.mpr hlength), if_neg (not_lt.mpr hchannels), hstart, hend,
    hC.window hm.window, hsel]
  simp only [Bind.bind, Except.bind, Pure.pure, Except.pure, htext]
  exact ⟨_, rfl⟩

/-! ## Selections -/

/-- of two selected revisions of one message none is later, so they are the same. -/
theorem latestRevisions_messages (hu : KeyUnique Revision.revisionId d.revisions) :
    KeyUnique (fun r : Revision => (r.channelId, r.messageId)) (d.latestRevisions run) := by
  have hnodup : (d.latestRevisions run).Nodup := by
    unfold Db.latestRevisions Db.windowRevisions
    exact (((hu.filter _).filter _).filter _).nodup
  refine List.Nodup.map_on (fun a ha b hb he => ?_) hnodup
  obtain ⟨⟨hwa, hea, hca⟩, hlasta⟩ := mem_latestRevisions.mp ha
  obtain ⟨⟨hwb, heb, hcb⟩, hlastb⟩ := mem_latestRevisions.mp hb
  obtain ⟨hchannel, hmessage⟩ := Prod.mk.inj he
  have hab := hlasta b hwb heb hcb (by simp [Revision.sameMessage, hchannel, hmessage])
  have hba := hlastb a hwa hea hca (by simp [Revision.sameMessage, hchannel, hmessage])
  simp only [Revision.before, decide_eq_false_iff_not, not_lt] at hab hba
  have heq := congrArg (fun x => (ofLex x).2) (le_antisymm hba hab)
  exact hu.eq (mem_windowRevisions.mp hwa).1 (mem_windowRevisions.mp hwb).1 heq

/-- a selection holds each message once. -/
theorem selectSources_messages (hu : KeyUnique Revision.revisionId d.revisions) (cap : Nat) :
    ((d.selectSources run cap).sources.map fun s => (s.channelId, s.messageId)).Nodup := by
  have hsorted : KeyUnique (fun r : Revision => (r.channelId, r.messageId))
      (((d.latestRevisions run).insertionSort Revision.newer).take cap) := by
    have hperm := (List.perm_insertionSort Revision.newer (d.latestRevisions run)).map
      fun r : Revision => (r.channelId, r.messageId)
    exact ((hperm.nodup_iff.mpr (latestRevisions_messages hu))).sublist
      ((List.take_sublist _ _).map _)
  simp only [Db.selectSources, List.map_reverse, List.map_map]
  exact List.nodup_reverse.mpr hsorted

/-- the channels of a selection are enabled subscriptions of its owner. -/
theorem selectSources_channels (hd : d.Catalogued) (cap : Nat) :
    channelCountOf (d.selectSources run cap).sources ≤ maxChannels := by
  have hsub : ((d.selectSources run cap).sources.map (·.channelId)).dedup ⊆
      (d.subscriptions.filter fun s => s.ownerId = run.ownerId && s.enabled).map (·.channelId) := by
    intro c hc
    obtain ⟨s, hs, rfl⟩ := List.mem_map.mp (List.mem_dedup.mp hc)
    obtain ⟨r, hr, rfl⟩ := mem_selectSources hs
    have hen := (mem_windowRevisions.mp (mem_latestRevisions.mp hr).1.1).2.1
    obtain ⟨o, ho, hen⟩ := List.any_eq_true.mp hen
    simp only [Bool.and_eq_true, decide_eq_true_eq] at hen
    refine List.mem_map.mpr ⟨o, List.mem_filter.mpr ⟨ho, ?_⟩, hen.2⟩
    simp only [Bool.and_eq_true, decide_eq_true_eq]
    exact hen.1
  have hle := (List.subperm_of_subset (List.nodup_dedup _) hsub).length_le
  rw [List.length_map, ← List.countP_eq_length_filter] at hle
  exact le_trans hle (hd.limit run.ownerId)

theorem Db.Sourced.channel (hd : d.Sourced C) {r : Revision} (hr : r ∈ d.revisions) :
    ∃ c, d.channels.find? (fun c => c.channelId = r.channelId) = some c ∧
      r.canonicalLink = publicLink c.username r.messageId := by
  obtain ⟨c, hc, hid, hlink⟩ := (hd.texts r hr).link
  refine ⟨c, hd.catalogued.channelIds.find? hc (decide_eq_true hid) fun o _ ho => ?_, hlink⟩
  exact (of_decide_eq_true ho).trans hid.symm

/-- the manifest source of a stored text is accepted. -/
theorem Db.Sourced.source_isOk (hC : C.AcceptsManifests) (hd : d.Sourced C) {r : Revision}
    (hr : r ∈ d.revisions) (he : r.eligible = true) :
    ∃ s, contractSource C (d.manifestSource run r) = .ok s := by
  obtain ⟨c, hc, hlink⟩ := hd.channel hr
  obtain ⟨body, hbody⟩ := Option.isSome_iff_exists.mp (Bool.and_eq_true _ _ ▸ he).1
  refine contractSource_isOk ?_ ?_ ?_ (hC.timestamp _)
  · show (r.body.getD "").utf8ByteSize ≤ maxContentBytes
    rw [hbody]
    exact ((hd.texts r hr).size body hbody).2
  · show r.canonicalLink = publicLink (((d.channels.find? _).map (·.username)).getD "") r.messageId
    rw [hc]
    exact hlink
  · show r.contentSha256 = C.textDigest (r.body.getD "")
    rw [hbody]
    exact (hd.texts r hr).digest body hbody

/-- what the contract sources of a selection say. -/
structure Accepted (C : Contracts) (d : Db) (run : PendingRun) (s : ContractSource) : Prop where
  content : 0 < s.content.utf8ByteSize ∧ s.content.utf8ByteSize ≤ maxContentBytes
  digest : s.contentDigest = C.textDigest s.content
  inWindow : wholeSecond run.windowStart ≤ s.publishedAt ∧ s.publishedAt < run.windowEnd

theorem Db.Sourced.accepted (hd : d.Sourced C) {cap : Nat} {source : ManifestSource}
    {s : ContractSource} (hs : source ∈ (d.selectSources run cap).sources)
    (h : contractSource C source = .ok s) : Accepted C d run s := by
  obtain ⟨r, hr, rfl⟩ := mem_selectSources hs
  obtain ⟨htime, hcontent, hdigest⟩ := contractSource_content h
  obtain ⟨hmem, -, hstart, hend⟩ := mem_windowRevisions.mp (mem_latestRevisions.mp hr).1.1
  obtain ⟨body, hbody⟩ := Option.isSome_iff_exists.mp
    (Bool.and_eq_true _ _ ▸ (mem_latestRevisions.mp hr).1.2.1).1
  have hbody' : s.content = body := by
    rw [hcontent]
    show r.body.getD "" = body
    rw [hbody]
    rfl
  refine ⟨hbody' ▸ (hd.texts r hmem).size body hbody, hcontent ▸ hdigest, ?_⟩
  rw [htime]
  exact ⟨wholeSecond_mono hstart, lt_of_le_of_lt (wholeSecond_le _) hend⟩

theorem sourceCap_le (sourceCount : Nat) : sourceCap sourceCount ≤ maxSources :=
  max_le (by decide) (min_le_right _ _)

theorem selectSources_length {cap : Nat} (hcap : cap ≤ maxSources) :
    (d.selectSources run cap).sources.length ≤ maxSources := by
  simp only [Db.selectSources, List.length_reverse, List.length_map, List.length_take]
  exact le_trans (min_le_left _ _) hcap

/-- the counts of a built manifest are those that the schema accepts. -/
theorem Db.Sourced.counts (hd : d.Sourced C) {cap : Nat} (hcap : cap ≤ maxSources)
    (hne : (d.selectSources run cap).sources ≠ []) {manifestId ownerId runId : Uuid}
    {windowStart windowEnd : Instant} {manifest : CanonicalManifest}
    (h : Built C manifestId ownerId runId windowStart windowEnd (d.selectSources run cap).sources
      manifest) (now : Instant) : (manifest.row now).countsOk = true := by
  have hlength : (d.selectSources run cap).sources.length ≤ maxSources :=
    selectSources_length hcap
  have hchannels : channelCountOf (d.selectSources run cap).sources ≤ maxChannels :=
    selectSources_channels hd.catalogued cap
  obtain ⟨s, hs⟩ := List.exists_mem_of_ne_nil _ hne
  have hpos : 0 < channelCountOf (d.selectSources run cap).sources :=
    List.length_pos_of_mem (List.mem_dedup.mpr (List.mem_map_of_mem hs))
  unfold Manifest.countsOk
  simp only [Bool.and_eq_true, decide_eq_true_eq]
  rw [show (manifest.row now).sourceCount = _ from h.sourceCount_eq,
    show (manifest.row now).channelCount = _ from h.channelCount_eq]
  exact ⟨⟨⟨List.length_pos_of_mem hs, hlength⟩, hpos⟩, hchannels⟩

/-- **A selection that is not empty builds**, whatever its cap within the limit. -/
theorem Db.Sourced.builds (hC : C.AcceptsManifests) (hd : d.Sourced C) {r : Run} {cap : Nat}
    (hcap : cap ≤ maxSources) (hne : (d.selectSources r.pendingRun cap).sources ≠ [])
    (manifestId : Uuid) :
    ∃ manifest, build C manifestId r.ownerId r.runId r.pendingRun.windowStart
      r.pendingRun.windowEnd (d.selectSources r.pendingRun cap).sources = .ok manifest := by
  have hlength : (d.selectSources r.pendingRun cap).sources.length ≤ maxSources :=
    selectSources_length hcap
  have hok : ∀ source ∈ (d.selectSources r.pendingRun cap).sources,
      ∃ s, contractSource C source = .ok s := by
    intro source hs
    obtain ⟨o, ho, rfl⟩ := mem_selectSources hs
    obtain ⟨⟨hw, he, -⟩, -⟩ := mem_latestRevisions.mp ho
    exact hd.source_isOk hC (mem_windowRevisions.mp hw).1 he
  obtain ⟨selected, hsel⟩ := mapM_contractSource_isOk hok
  have hall := mapM_contractSource hsel
  have hmessages := mapM_contractSource_messages hsel
  have hperm : List.Perm (selected.insertionSort fun a b => orderKey a ≤ orderKey b) selected :=
    List.perm_insertionSort _ _
  have accepted : ∀ s ∈ selected.insertionSort (fun a b => orderKey a ≤ orderKey b),
      Accepted C d r.pendingRun s := fun s hs => by
    obtain ⟨source, hmem, hok⟩ := mem_right hall (hperm.mem_iff.mp hs)
    exact hd.accepted hmem hok
  have hnonempty : selected.insertionSort (fun a b => orderKey a ≤ orderKey b) ≠ [] := by
    intro he
    rw [he] at hperm
    rw [hperm.nil_eq.symm] at hall
    exact hne (List.forall₂_nil_right_iff.mp hall)
  have hwhole : wholeSecond r.pendingRun.windowStart = r.pendingRun.windowStart :=
    wholeSecond_idem _
  refine build_isOk hC hlength (selectSources_channels hd.catalogued cap)
    (hC.timestamp r.windowStart) (hC.timestamp r.windowEnd) hsel
    { window := ?_
      nonempty := hnonempty
      sources := ?_
      channels := ?_
      contents := fun s hs => (accepted s hs).content
      digests := fun s hs => (accepted s hs).digest
      distinct := ?_
      ordered := ?_
      inWindow := fun s hs => hwhole ▸ (accepted s hs).inWindow }
  · obtain ⟨s, hs⟩ := List.exists_mem_of_ne_nil _ hnonempty
    have := (accepted s hs).inWindow
    rw [hwhole] at this
    exact lt_of_le_of_lt this.1 this.2
  · rw [hperm.length_eq, ← hall.length_eq]
    exact hlength
  · have hchannels : selected.map (·.channelRef) =
        (d.selectSources r.pendingRun cap).sources.map (·.channelId) := by
      have := congrArg (List.map Prod.fst) hmessages
      rwa [List.map_map, List.map_map] at this
    rw [((hperm.map _).dedup).length_eq, hchannels]
    exact selectSources_channels hd.catalogued cap
  · rw [(hperm.map _).nodup_iff, hmessages]
    exact selectSources_messages hd.revisionIds cap
  · exact List.pairwise_insertionSort _ _

end

/-! ## What every step keeps -/

/-- no run failed as unbuildable. -/
def Db.Unrefused (d : Db) : Prop := ∀ r ∈ d.runs, r.safeFailureClass ≠ some "manifest_invalid"

/-- no other failure is called that. -/
theorem classifyFailure_ne (code : RecapFailureCode) :
    (classifyFailure code).1 ≠ "manifest_invalid" := by
  cases code <;> decide

/-- what every step of the worker keeps. -/
structure Upholds (C : Contracts) (d d' : Db) : Prop where
  channels : ∀ c ∈ d.channels, c ∈ d'.channels
  sourced : d.Sourced C → d'.Sourced C
  unrefused : d.Unrefused → d'.Unrefused

theorem Upholds.refl (C : Contracts) (d : Db) : Upholds C d d := ⟨fun _ h => h, id, id⟩

theorem Upholds.trans {C : Contracts} {a b c : Db} (h : Upholds C a b) (h' : Upholds C b c) :
    Upholds C a c :=
  ⟨fun x hx => h'.channels x (h.channels x hx), h'.sourced ∘ h.sourced, h'.unrefused ∘ h.unrefused⟩

section
variable {C : Contracts} {K : Message → Prop} {w : Crew} {k : Kind} {d d' : Db}

theorem Db.Unrefused.update {p : Run → Bool} {u : Run → Run}
    (h : d.Unrefused) (hr : d'.runs = updateWhere p u d.runs)
    (hu : ∀ r, (u r).safeFailureClass = r.safeFailureClass ∨
      (u r).safeFailureClass ≠ some "manifest_invalid") : d'.Unrefused := fun r' hr' => by
  rw [hr] at hr'
  obtain ⟨r, hmem, ⟨-, rfl⟩ | ⟨-, rfl⟩⟩ := mem_updateWhere.mp hr'
  · rcases hu r with he | hne
    · rw [he]
      exact h r hmem
    · exact hne
  · exact h _ hmem

/-- only an executor fails a run as unbuildable. -/
theorem Change.unrefused (h : Change C K w k d d') (hk : k ≠ .failed) (hd : d.Unrefused) :
    d'.Unrefused := by
  have hf := h.frame .runs
  cases h with
  | created _ h =>
    obtain ⟨-, -, -, -, ob, -, rfl⟩ := h
    intro r hr
    rcases List.mem_append.mp hr with hr | hr
    · exact hd r hr
    · rw [List.mem_singleton.mp hr]
      exact fun h => by cases h
  | repeated _ h =>
    obtain ⟨-, -, ob, -, rfl⟩ := h
    exact hd.update rfl fun _ => .inl rfl
  | occurrence _ h =>
    obtain ⟨-, runs, ob, hruns, -, rfl⟩ := h
    obtain ⟨new, rfl, -, hnew⟩ := fannedOut_new hruns
    intro r hr
    rcases List.mem_append.mp hr with hr | hr
    · exact hd r hr
    · rw [(hnew r hr).2.2]
      exact fun h => by cases h
  | acquiring h =>
    obtain ⟨-, ob, -, rfl⟩ := h
    exact hd.update rfl fun _ => .inl rfl
  | recorded _ _ => exact hd.update rfl fun _ => .inl rfl
  | empty h =>
    obtain ⟨-, ob, -, rfl⟩ := h
    exact hd.update rfl fun _ => .inl rfl
  | failed _ => exact absurd rfl hk
  | manifest h _ =>
    rw [h.effect]
    exact hd.update rfl fun _ => .inl rfl
  | completion _ _ h _ =>
    obtain ⟨-, -, -, -, -, -, ob, -, rfl⟩ := h
    exact hd.update rfl fun _ => .inl rfl
  | recapFailure _ h =>
    obtain ⟨-, -, -, -, ob, -, rfl⟩ := h
    exact hd.update rfl fun _ => .inr fun he => classifyFailure_ne _ (Option.some.inj he)
  | reaped h =>
    obtain ⟨ob, -, rfl⟩ := h
    exact hd.update rfl fun _ => .inr fun he => absurd (Option.some.inj he) (by decide)
  | _ =>
    intro r hr
    exact hd r ((hf (by decide)) ▸ hr)

/-- a change that no executor makes. -/
theorem Change.upholds (h : Change C K w k d d') (hk : k.isExecutor = false) : Upholds C d d' where
  channels _ hc := h.channelsGrow.kept hc
  sourced := h.sourced fun he => by
    rw [he] at hk
    cases hk
  unrefused := h.unrefused fun he => by
    rw [he] at hk
    cases hk

/-- a step of a call for a stored channel. -/
theorem CallStep.upholds {request : AcquisitionRequest} (hs : CallStep C request d d')
    (hn : d.names request) : Upholds C d d' where
  channels c hc := by
    cases hs with
    | lease at_ state wait holder now => exact hc
    | append post published revisionId _ ha =>
      rcases appendRevision_some ha with ⟨rfl, -⟩ | ⟨rfl, -⟩ <;> exact hc
    | withdrawal g now => exact hc
  sourced := hs.sourced hn
  unrefused hd := by
    cases hs with
    | lease at_ state wait holder now => exact hd
    | append post published revisionId _ ha =>
      rcases appendRevision_some ha with ⟨rfl, -⟩ | ⟨rfl, -⟩ <;> exact hd
    | withdrawal g now => exact hd

/-- what a tick does beside its walks, as long as it fails its run for missing pages only. -/
theorem upholds_tolerates (d₀ : Db) : Tolerates (· = .providerUnavailable) (Upholds C d₀) := by
  intro d d' ha hc h
  refine h.trans ⟨fun c hc => ha.channels ▸ hc, fun hd => ?_, fun hd r' hr' => ?_⟩
  · exact ⟨hd.catalogued.same ha.channels ha.subscriptions, ha.revisions ▸ hd.revisionIds,
      fun r hr => ha.channels ▸ hd.texts r (ha.revisions ▸ hr)⟩
  · rcases hc r' hr' with ⟨r, hr, he⟩ | ⟨_, rfl, he⟩
    · rw [he]
      exact hd r hr
    · rw [he]
      exact fun h => absurd (Option.some.inj h) (by decide)

end

/-! ## Ticks -/

section
variable {C : Contracts} {E : Type} {R : Db → Db → Prop}
  {env : E → (q : Question) → q.Answer → E → Prop} {s : Db} {e : E}

/-- a program whose statements keep it, beside others that do. -/
theorem upholds_of_keeps {ε α : Type} {p : Action ε α} (hR : ∀ {a b}, R a b → Upholds C a b)
    (h : ∀ d, p.Keeps (Upholds C d)) {s₀ : Db} (h₀ : Upholds C s₀ s) :
    Safe (S := service) R env (always (Upholds C)) p (fun _ d _ => Upholds C s₀ d) s e := by
  induction p generalizing s e with
  | done r => exact h₀
  | ask q k ih => exact fun s' hs' a e' _ => ih a (fun d => h d a) (h₀.trans (hR hs'))
  | act f k ih =>
    intro s' hs'
    have hstep := (h s').1 s' (.refl C s')
    exact ⟨hstep, ih s' (fun d => (h d).2 s') ((h₀.trans (hR hs')).trans hstep)⟩

variable (w : Surrounds R env True) (hR : ∀ {a b}, R a b → Upholds C a b)
include w hR

/-- the walks store what the builder checks. -/
theorem acquire_upholds {run : PendingRun} {channels : List (Uuid × String)}
    (hs : s.Sourced C) (hn : ∀ channel ∈ channels, s.names (run.request channel)) :
    Safe (S := service) R env (always (Upholds C)) (acquire C run channels)
      (fun _ d _ => d.Sourced C) s e := by
  have rule : ∀ channel ∈ channels, CallRule C (run.request channel) R (Upholds C) env True
      fun d => d.Sourced C ∧ ∀ channel ∈ channels, d.names (run.request channel) :=
    fun channel hc =>
      { surrounds := w
        other := fun h hI => ⟨(hR h).sourced hI.1, fun c hc => (hI.2 c hc).kept (hR h).channels⟩
        idle := fun d => .refl C d
        step := fun {d d'} hI hstep => by
          have hup := hstep.upholds (hI.2 channel hc)
          exact ⟨hup, hup.sourced hI.1, fun c hc => (hI.2 c hc).kept hup.channels⟩ }
  exact (acquire_calls channels rule ⟨hs, hn⟩).imp fun _ _ _ h => h.1.1

variable (hC : C.AcceptsManifests)
include hC

/-- what is selected from a sourced database builds, so nothing fails as unbuildable. -/
theorem proceed_upholds {sourceCount : Nat} {r : Run} {listed : Db} {outcomes : Outcomes}
    (hs : s.Sourced C) :
    Safe (S := service) R env (always (Upholds C))
      (proceed C sourceCount r.pendingRun listed outcomes) (fun _ _ _ => True) s e := by
  refine safe_read w (fun s' _ _ => ⟨.refl C s', fun _ => trivial⟩)
    fun _ seen e₁ _ hseen => ⟨.refl C seen, ?_⟩
  have hsourced := (hR hseen).sourced hs
  refine Safe.imp (fun _ _ _ _ => trivial) (upholds_of_keeps hR (fun d => ?_) (.refl C seen))
  refine (recordAcquisition_aside (upholds_tolerates d) _ _).bind fun _ =>
    (commit_aside (upholds_tolerates d) r.pendingRun _ rfl fun hne manifestId x hx => ?_).bind
      fun _ => Prog.keeps_pure _
  obtain ⟨manifest, hm⟩ := hsourced.builds hC (sourceCap_le sourceCount) hne manifestId
  rw [show build C manifestId r.pendingRun.ownerId r.pendingRun.runId _ _ _ = _ from hm] at hx
  cases hx

theorem acquireRun_upholds {sourceCount : Nat} {r : Run} (hs : s.Sourced C) :
    Safe (S := service) R env (always (Upholds C)) (acquireRun C sourceCount r.pendingRun)
      (fun _ _ _ => True) s e := by
  refine safe_read w (fun s' _ _ => ⟨.refl C s', fun _ => trivial⟩)
    fun _ listed e₁ _ hlisted => ⟨.refl C listed, ?_⟩
  have hsourced := (hR hlisted).sourced hs
  refine (safe_bind (S := service) _ _ _).mpr (Safe.imp (fun outcome s₁ e₂ h₁ => ?_)
    (acquire_upholds w hR hsourced fun channel hc => mem_subscribedChannels hc))
  rcases outcome with x | outcomes
  · trivial
  dsimp only
  rcases hacq : acquired outcomes with _ | _ | _ | _
  · exact proceed_upholds w hR hC h₁
  · exact proceed_upholds w hR hC h₁
  · trivial
  · exact Safe.imp (fun _ _ _ _ => trivial) (upholds_of_keeps hR (fun d =>
      (failWith_aside (upholds_tolerates d) _ rfl).bind fun _ => Prog.keeps_pure _) (.refl C s₁))

/-- **A tick keeps what every step keeps.** -/
theorem tick_upholds {sourceCount : Nat} (hs : s.Sourced C) :
    Safe (S := service) R env (always (Upholds C)) (tick C sourceCount) (fun _ _ _ => True) s e := by
  refine safe_read w (fun s' _ _ => ⟨.refl C s', fun _ => trivial⟩)
    fun m s₁ e₁ _ hs₁ => ⟨.refl C s₁, ?_⟩
  have hsourced := (hR hs₁).sourced hs
  rcases hpick : s₁.selectPending m.now with _ | run
  · trivial
  obtain ⟨r, -, rfl⟩ := Option.map_eq_some_iff.mp hpick
  dsimp only
  split_ifs
  · refine (safe_bind (S := service) _ _ _).mpr (Safe.imp (fun begun s₂ e₂ h₂ => ?_)
      (upholds_of_keeps hR (fun d => beginAcquisition_aside (upholds_tolerates d) _) (.refl C s₁)))
    rcases begun with x | b
    · trivial
    cases b with
    | true => exact acquireRun_upholds w hR hC (h₂.sourced hsourced)
    | false => trivial
  · exact acquireRun_upholds w hR hC hsourced

theorem executeOne_upholds {sourceCount : Nat} (hs : s.Sourced C) :
    Safe (S := service) R env (always (Upholds C)) (executeOne C sourceCount) (fun _ _ _ => True)
      s e := by
  refine (safe_bind (S := service) _ _ _).mpr
    (Safe.imp (fun r _ _ _ => ?_) (tick_upholds w hR hC hs))
  rcases r with x | k
  · trivial
  · cases k <;> trivial

end

/-! ## The worker -/

section
variable {C : Contracts}

theorem upkeep (C : Contracts) :
    Discipline.Upkeep (fun d : Db => d.Sourced C ∧ d.Unrefused) (Upholds C) where
  refl := .refl C
  trans := Upholds.trans
  keeps h hI := ⟨h.sourced hI.1, h.unrefused hI.2⟩

/-- **The discipline of the worker, with the invariant of what it stores.** -/
def sourcing (hC : C.AcceptsManifests) (S : Setting) : Discipline (worker C S) :=
  (discipline C S).strengthen (upkeep C) fun {ts t s} hstart _ hI => by
    by_cases ht : t.isExecutor = true
    · cases t with
      | executeOne sourceCount =>
        have w : Surrounds (fun d d' => S.Others C (.executeOne sourceCount) d d' ∧ Upholds C d d')
            ((worker C S).env (.executeOne sourceCount)) True :=
          ⟨fun a => ⟨.refl, .refl C a⟩, fun h h' => ⟨.trans h.1 h'.1, h.2.trans h'.2⟩,
            fun _ _ _ _ _ => trivial⟩
        exact Safe.mono (fun _ _ h => h) (fun _ _ _ _ h => h) (fun _ _ _ h _ => h)
          (fun _ _ _ h => h)
          (safe_ending (Q := fun _ _ _ => True).mpr (executeOne_upholds w (fun h => h.2) hC hI.1))
      | _ => cases ht
    · refine Safe.mono (fun _ _ h => h) (fun _ _ _ _ h => h) (fun d d' _ _ hguar => ?_)
        (fun _ _ _ h => h) (safe_trivial _ _ _)
      rcases hguar.1 with rfl | ⟨k, hk, hc⟩
      · exact .refl C _
      · refine hc.upholds (Bool.eq_false_iff.mpr fun he => ht (hk.1 he))

/-- every reachable database is sourced, and no run failed as unbuildable. -/
theorem Reachable.sourced {S : Setting} (hC : C.AcceptsManifests) {d : Db} (h : Reachable C S d) :
    d.Sourced C ∧ d.Unrefused := by
  obtain ⟨ts, h⟩ := h
  have hsound : (sourcing hC S).Sound ⟨[], Db.empty⟩ :=
    Discipline.sound_empty ⟨Db.Keyed.empty, .empty C, fun _ h => by cases h⟩
  exact (Discipline.sound_reach hsound h).inv.2

/-- **Acquired texts always build**: in every reachable database the selection of any run, with
any configured source count, is empty or builds, with counts that the schema accepts, and no run
ended as `manifest_invalid`. -/
theorem reachable_builds {S : Setting} (hC : C.AcceptsManifests) {d : Db} (h : Reachable C S d) :
    (∀ run ∈ d.runs, ∀ (sourceCount : Nat) (manifestId : Uuid),
      (d.selectSources run.pendingRun (sourceCap sourceCount)).sources ≠ [] →
      ∃ manifest, build C manifestId run.ownerId run.runId run.pendingRun.windowStart
          run.pendingRun.windowEnd
          (d.selectSources run.pendingRun (sourceCap sourceCount)).sources = .ok manifest ∧
        ∀ now, (manifest.row now).countsOk = true) ∧
    ∀ run ∈ d.runs, run.safeFailureClass ≠ some "manifest_invalid" := by
  obtain ⟨hsourced, hclasses⟩ := h.sourced hC
  refine ⟨fun run _ sourceCount manifestId hne => ?_, hclasses⟩
  obtain ⟨manifest, hm⟩ := hsourced.builds hC (sourceCap_le sourceCount) hne manifestId
  exact ⟨manifest, hm, hsourced.counts (sourceCap_le sourceCount) hne (build_ok hm)⟩

end

/-! ## A contract that accepts every manifest -/

namespace Sample

instance encodableChar : Encodable Char := .ofLeftInverse Char.toNat Char.ofNat Char.ofNat_toNat

instance encodableString : Encodable String := .ofLeftInverse String.toList String.ofList fun _ => String.ofList_toList

instance encodableSource : Encodable ContractSource := .ofLeftInverse
  (fun s => (s.revisionRef, s.channelRef, s.channelLabel, s.messageId, s.publishedAt, s.content,
    s.contentDigest, s.publicLink, s.revision))
  (fun (a, b, c, d, e, f, g, h, i) => ⟨a, b, c, d, e, f, g, h, i⟩) fun _ => rfl

instance encodableManifest : Encodable ContractManifest := .ofLeftInverse
  (fun m => (m.manifestRef, m.owner, m.digestRunId, m.windowStart, m.windowEnd, m.sources))
  (fun (a, b, c, d, e, f) => ⟨a, b, c, d, e, f⟩) fun _ => rfl

/-- the text of a manifest: a number of strokes, but for the manifest of the sample. -/
def wording (m : ContractManifest) : String :=
  if m = manifest then "manifest" else String.ofList (List.replicate (Encodable.encode m + 9) 'x')

def unworded (t : String) : Option ContractManifest :=
  if t = "manifest" then some manifest else Encodable.decode (t.length - 9)

theorem unworded_wording (m : ContractManifest) : unworded (wording m) = some m := by
  unfold wording unworded
  split_ifs with hm ht ht
  · rw [hm]
  · exact absurd rfl ht
  · have hlength := congrArg String.length ht
    rw [String.length_ofList, List.length_replicate] at hlength
    rw [show "manifest".length = 8 from rfl] at hlength
    omega
  · rw [String.length_ofList, List.length_replicate, Nat.add_sub_cancel]
    exact Encodable.encodek m

/-- the contracts over documents, which encode every manifest. -/
def accepting : Contracts :=
  { contracts with
    canonicalText := fun m => some (wording m)
    readManifest := unworded
    readCanonical := fun h => by
      cases h
      exact unworded_wording _ }

theorem accepting_accepts : accepting.AcceptsManifests where
  window h := decide_eq_true h
  timestamp _ := rfl
  manifest _ _ := rfl

/-- the day of the sample, under these contracts. -/
def acceptedDay : List (Turn service (Task accepting)) :=
  [.start (.acceptSubscription 101 (.payload (.subscription subscribe))),
    .run 0 100 (answers 5 1000 page),
    .start (.acceptRun 102 (.payload (.run request))), .run 1 100 (answers 6 2000 page),
    .start (.executeOne 10), .run 2 100 (answers 7 3000 page)]

def acquiredDay : Db :=
  (Pool.play (worker accepting (setting .many False)) acceptedDay ⟨[], Db.empty⟩).state

theorem acquiredDay_reachable : Reachable accepting (setting .many False) acquiredDay := by
  refine ⟨_, Pool.play_reach ⟨starts ?_ id rfl, fun u _ => answers_given _ _ _ _,
    starts ?_ id rfl, fun u _ => answers_given _ _ _ _,
    starts ?_ id rfl, fun u _ => answers_given _ _ _ _, trivial⟩⟩
  · rintro _ ⟨⟩
    simp [setting, messages]
  · rintro _ ⟨⟩
    simp [setting, messages]
  · rintro _ ⟨⟩

end Sample

/-- the post of the sample is selected, and its manifest builds. -/
theorem acquiredDay_builds :
    Sample.acquiredDay.runs.map (fun r => (r.runId, r.state)) = [(50, .waitingRecap)] ∧
    ∀ run ∈ Sample.acquiredDay.runs,
      (Sample.acquiredDay.selectSources run.pendingRun (sourceCap 10)).sources.length = 1 ∧
      ∃ manifest, build Sample.accepting 9 run.ownerId run.runId run.pendingRun.windowStart
          run.pendingRun.windowEnd
          (Sample.acquiredDay.selectSources run.pendingRun (sourceCap 10)).sources = .ok manifest ∧
        ∀ now, (manifest.row now).countsOk = true := by
  have hlength : ∀ run ∈ Sample.acquiredDay.runs,
      (Sample.acquiredDay.selectSources run.pendingRun (sourceCap 10)).sources.length = 1 := by
    decide +kernel
  refine ⟨by decide +kernel, fun run hrun => ⟨hlength run hrun, ?_⟩⟩
  have hbuilds := (reachable_builds Sample.accepting_accepts Sample.acquiredDay_reachable).1
  refine hbuilds run hrun 10 9 fun he => ?_
  have := hlength run hrun
  rw [he] at this
  cases this

end ChannelDigests
