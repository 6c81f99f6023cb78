import ChannelDigests.Refinement
import ChannelDigests.Documents

/-!
# Erasure is complete and permanent

Texts live in revisions and in manifests, which `digest_manifest_sources` links.  With one executor
a withdrawn message leaves both, and a text that was dropped does not come back.

* `Built.holds`       the links of a built manifest are the messages of its text;
* `Db.Erased`         the joint invariant of revisions, manifests and links;
* `Change.erased`     every change keeps it when at most one executor works;
* `Dropped`, `Change.dropped`   what is dropped stays dropped;
* `reachable_erased`  **erasure is complete and permanent**.
-/

namespace ChannelDigests
open Lib

/-! ## What a manifest text holds -/

/-- the text holds the sources of a manifest that the links name and that are not withdrawn. -/
def Db.holdsText (d : Db) (C : Contracts) (manifestId : Uuid) (text : String) : Prop :=
  ∃ cm, C.readManifest text = some cm ∧ ∀ s ∈ cm.sources,
    ⟨manifestId, s.channelRef, s.messageId⟩ ∈ d.manifestSources ∧ d.live s.channelRef s.messageId

section
variable {C : Contracts}

/-- the contract sources are those of the selected ones. -/
theorem mem_mapM_contractSource {sources : List ManifestSource} {selected : List ContractSource}
    (h : sources.mapM (contractSource C) = .ok selected) {s : ContractSource} (hs : s ∈ selected) :
    ∃ source ∈ sources, contractSource C source = .ok s := by
  have hall := mapM_contractSource h
  clear h
  induction hall with
  | nil => cases hs
  | cons hsource _ ih =>
    rcases List.mem_cons.mp hs with rfl | hs
    · exact ⟨_, List.mem_cons_self, hsource⟩
    · obtain ⟨o, ho, he⟩ := ih hs
      exact ⟨o, List.mem_cons_of_mem _ ho, he⟩

/-- **The text of a built manifest holds its messages.** -/
theorem Built.holds {manifestId ownerId runId : Uuid} {windowStart windowEnd : Instant}
    {sources : List ManifestSource} {manifest : CanonicalManifest}
    (h : Built C manifestId ownerId runId windowStart windowEnd sources manifest) :
    ∃ cm, C.readManifest manifest.text = some cm ∧
      ∀ s ∈ cm.sources, (s.channelRef, s.messageId) ∈ manifest.messages := by
  obtain ⟨selected, hsel, htext⟩ := h.text
  refine ⟨_, C.readCanonical htext, fun s hs => ?_⟩
  obtain ⟨source, hsource, he⟩ :=
    mem_mapM_contractSource hsel ((List.perm_insertionSort _ _).mem_iff.mp hs)
  obtain ⟨e1, e2⟩ := contractSource_message he
  rw [h.messages_eq, mem_messagesOf]
  exact ⟨source, hsource, by rw [e1, e2]⟩

end

/-! ## The invariant -/

/-- a revision without a text is minimized, and a withdrawn one has no text. -/
structure Revision.Erased (r : Revision) : Prop where
  withdrawn : r.deletedAt.isSome = true → r.body = none
  minimized : r.body = none ↔ r.minimizedAt.isSome = true

/-- what holds of revisions, manifests and links together. -/
structure Db.Erased (C : Contracts) (d : Db) : Prop where
  revisions : ∀ r ∈ d.revisions, r.Erased
  texts : ∀ m ∈ d.manifests, m.canonicalText = none ↔ m.minimizedAt.isSome = true
  held : ∀ m ∈ d.manifests, ∀ text, m.canonicalText = some text → d.holdsText C m.manifestId text

theorem Db.Erased.empty (C : Contracts) : Db.Erased C Db.empty where
  revisions _ h := by cases h
  texts _ h := by cases h
  held _ h := by cases h

section
variable {C : Contracts} {K : Message → Prop} {w : Crew} {k : Kind} {d d' : Db}

theorem RevisionMoves.erased {r r' : Revision} (h : RevisionMoves k r r') (hr : r.Erased) :
    r'.Erased := by
  rcases h with rfl | ⟨now, rfl⟩ | ⟨-, -, now, rfl⟩
  · exact hr
  · exact ⟨fun _ => rfl, by simp [Revision.minimize]⟩
  · exact ⟨fun _ => rfl, by simp [Revision.withdraw]⟩

/-- a manifest that has its text after a change had it before. -/
theorem ManifestMoves.text {m m' : Manifest} (h : ManifestMoves m m') {text : String}
    (ht : m'.canonicalText = some text) : m' = m := by
  rcases h with rfl | ⟨now, rfl⟩
  · rfl
  · cases ht

/-- links stay. -/
theorem Change.link_kept (h : Change C K w k d d') {l : ManifestSourceLink}
    (hl : l ∈ d.manifestSources) : l ∈ d'.manifestSources := by
  have hf := h.frame .manifestSources
  cases h with
  | manifest h _ =>
    rw [h.effect]
    exact List.mem_append_left _ hl
  | _ => exact (hf (by decide)) ▸ hl

/-- a manifest whose text outlives a withdrawal holds none of the withdrawn messages. -/
theorem withdraw_live {channelId : Uuid} {g : Int → Bool} {now : Instant} {m : Manifest}
    {text : String} (hm : m ∈ (d.withdraw channelId g now).manifests)
    (ht : m.canonicalText = some text) {l : ManifestSourceLink} (hl : l ∈ d.manifestSources)
    (hid : l.manifestId = m.manifestId) (hlive : d.live l.channelId l.messageId) :
    (d.withdraw channelId g now).live l.channelId l.messageId := by
  have hspared : (decide (l.channelId = channelId) && g l.messageId) = false := by
    obtain ⟨o, ho, ⟨-, rfl⟩ | ⟨hp, rfl⟩⟩ := mem_updateWhere.mp hm
    · cases ht
    · simp only [ht, Option.isSome_some, Bool.true_and, List.any_eq_false] at hp
      have := hp l hl
      simpa [hid] using this
  obtain ⟨r, hr, h1, h2, h3⟩ := hlive
  refine ⟨r, mem_updateWhere.mpr ⟨r, hr, .inr ⟨?_, rfl⟩⟩, h1, h2, h3⟩
  rw [h3, h1, h2]
  simpa using hspared

theorem Change.erased_held (h : Change C K w k d d') (hw : w ≠ .many) (hd : Db.Erased C d)
    {m' : Manifest} (hm' : m' ∈ d'.manifests) {text : String}
    (ht : m'.canonicalText = some text) : d'.holdsText C m'.manifestId text := by
  rcases h.manifest_origin hm' with ⟨m, hm, hmove⟩ | ⟨m, manifest, request, hc, hlive, rfl⟩
  · obtain rfl := hmove.text ht
    obtain ⟨cm, hcm, hs⟩ := hd.held m' hm text ht
    refine ⟨cm, hcm, fun s hmem => ⟨h.link_kept (hs s hmem).1, ?_⟩⟩
    obtain ⟨hl, hlive⟩ := hs s hmem
    by_cases hk : k = .withdrawal
    · subst hk
      cases h
      exact withdraw_live hm' ht hl rfl hlive
    · exact h.live hk hlive
  · cases ht
    obtain ⟨windowStart, windowEnd, sources, hb⟩ := hc.built
    obtain ⟨cm, hcm, hs⟩ := (build_ok hb).holds
    refine ⟨cm, hcm, fun s hmem => ?_⟩
    rw [hc.effect]
    exact ⟨List.mem_append_right _ (List.mem_map.mpr ⟨_, hs s hmem, rfl⟩),
      hlive hw _ (hs s hmem)⟩

/-- **Every change keeps the erasure complete**, when at most one executor works. -/
theorem Change.erased (h : Change C K w k d d') (hw : w ≠ .many) (hd : Db.Erased C d) :
    Db.Erased C d' where
  revisions r' hr' := by
    rcases h.revisions with ⟨u, hd', hu⟩ | ⟨-, o, id, -, hd', -⟩
    · rw [hd'] at hr'
      obtain ⟨r, hr, rfl⟩ := List.mem_map.mp hr'
      exact (hu r).erased (hd.revisions r hr)
    · rw [hd', List.mem_append, List.mem_singleton] at hr'
      rcases hr' with hr | rfl
      · exact hd.revisions r' hr
      · exact ⟨nofun, by simp [ObservedRevision.row]⟩
  texts m' hm' := by
    rcases h.manifest_origin hm' with ⟨m, hm, rfl | ⟨now, rfl⟩⟩ | ⟨m, manifest, request, -, -, rfl⟩
    · exact hd.texts m' hm
    · simp [Manifest.minimize]
    · simp [CanonicalManifest.row]
  held m' hm' text ht := h.erased_held hw hd hm' ht

/-! ## Permanence -/

/-- the rows of these identities are there and have no text. -/
structure Dropped (revisionId : Uuid → Prop) (manifestId : Uuid → Prop) (d : Db) : Prop where
  keyed : d.Keyed
  revisionIds : KeyUnique Revision.revisionId d.revisions
  bodies : ∀ id, revisionId id → ∃ r ∈ d.revisions, r.revisionId = id ∧ r.body = none
  texts : ∀ id, manifestId id → ∃ m ∈ d.manifests, m.manifestId = id ∧ m.canonicalText = none

theorem RevisionMoves.body {r r' : Revision} (h : RevisionMoves k r r') (hb : r.body = none) :
    r'.body = none := by
  rcases h with rfl | ⟨now, rfl⟩ | ⟨-, -, now, rfl⟩
  · exact hb
  · rfl
  · rfl

theorem ManifestMoves.dropped {m m' : Manifest} (h : ManifestMoves m m')
    (ht : m.canonicalText = none) : m'.canonicalText = none := by
  rcases h with rfl | ⟨now, rfl⟩
  · exact ht
  · rfl

/-- the identities of the revisions stay unique. -/
theorem Change.revisionIds (h : Change C K w k d d') (hu : KeyUnique Revision.revisionId d.revisions) :
    KeyUnique Revision.revisionId d'.revisions := by
  rcases h.revisions with ⟨u, hd', hmove⟩ | ⟨-, o, id, -, hd', -, hid⟩
  · rw [hd']
    exact keyUnique_map hu fun r => (hmove r).revisionId
  · rw [hd']
    exact hu.snoc hid

/-- a stored revision is still stored. -/
theorem Change.revision_kept (h : Change C K w k d d') {r : Revision} (hr : r ∈ d.revisions) :
    ∃ r' ∈ d'.revisions, RevisionMoves k r r' := by
  rcases h.revisions with ⟨u, hd', hmove⟩ | ⟨-, o, id, -, hd', -⟩
  · exact ⟨u r, by rw [hd']; exact List.mem_map_of_mem hr, hmove r⟩
  · exact ⟨r, by rw [hd']; exact List.mem_append_left _ hr, .inl rfl⟩

theorem Change.dropped {p q : Uuid → Prop} (h : Change C K w k d d') (hd : Dropped p q d) :
    Dropped p q d' where
  keyed := h.keyed hd.keyed
  revisionIds := h.revisionIds hd.revisionIds
  bodies id hid := by
    obtain ⟨r, hr, rfl, hb⟩ := hd.bodies id hid
    obtain ⟨r', hr', hm⟩ := h.revision_kept hr
    exact ⟨r', hr', hm.revisionId, hm.body hb⟩
  texts id hid := by
    obtain ⟨m, hm, rfl, ht⟩ := hd.texts id hid
    obtain ⟨m', hm', hmove⟩ := h.manifest_kept hm
    exact ⟨m', hm', hmove.manifestId, hmove.dropped ht⟩

/-- what is dropped in a state is dropped in every later one. -/
theorem Evolves.dropped {p : Kind → Prop} (h : Evolves C K w p d d') (hd : d.Keyed)
    (hu : KeyUnique Revision.revisionId d.revisions) :
    (∀ r ∈ d.revisions, r.body = none → ∀ r' ∈ d'.revisions, r'.revisionId = r.revisionId →
      r'.body = none) ∧
    ∀ m ∈ d.manifests, m.canonicalText = none → ∀ m' ∈ d'.manifests,
      m'.manifestId = m.manifestId → m'.canonicalText = none := by
  have hd' : Dropped (fun id => ∃ r ∈ d.revisions, r.revisionId = id ∧ r.body = none)
      (fun id => ∃ m ∈ d.manifests, m.manifestId = id ∧ m.canonicalText = none) d' :=
    h.keeps (fun _ hc => hc.dropped) ⟨hd, hu, fun _ => id, fun _ => id⟩
  refine ⟨fun r hr hb r' hr' hid => ?_, fun m hm ht m' hm' hid => ?_⟩
  · obtain ⟨o, ho, hoid, hob⟩ := hd'.bodies _ ⟨r, hr, rfl, hb⟩
    rwa [hd'.revisionIds.eq hr' ho (hid.trans hoid.symm)]
  · obtain ⟨o, ho, hoid, hot⟩ := hd'.texts _ ⟨m, hm, rfl, ht⟩
    rwa [hd'.keyed.manifests.eq hm' ho (hid.trans hoid.symm)]

end

/-- **Erasure is complete and permanent** for a worker with one executor: a withdrawn revision has
no text, a revision or manifest has no text exactly when it is minimized, a stored manifest text
holds no message whose stored revisions are all withdrawn, and a text that was dropped never comes
back. -/
theorem reachable_erased {C : Contracts} {S : Setting} (hcrew : S.crew ≠ .many)
    {P P' : Pool service (Task C) Empty Ending}
    (h : Pool.Reach (worker C S) ⟨[], Db.empty⟩ P) (h' : Pool.Reach (worker C S) P P') :
    (∀ r ∈ P.state.revisions, r.deletedAt.isSome = true → r.body = none) ∧
    (∀ r ∈ P.state.revisions, r.body = none ↔ r.minimizedAt.isSome = true) ∧
    (∀ m ∈ P.state.manifests, m.canonicalText = none ↔ m.minimizedAt.isSome = true) ∧
    (∀ m ∈ P.state.manifests, ∀ text, m.canonicalText = some text →
      ∃ cm, C.readManifest text = some cm ∧ ∀ s ∈ cm.sources,
        ¬ ∀ r ∈ P.state.revisions, r.channelId = s.channelRef → r.messageId = s.messageId →
          r.deletedAt.isSome = true) ∧
    (∀ r ∈ P.state.revisions, r.body = none → ∀ r' ∈ P'.state.revisions,
      r'.revisionId = r.revisionId → r'.body = none) ∧
    ∀ m ∈ P.state.manifests, m.canonicalText = none → ∀ m' ∈ P'.state.manifests,
      m'.manifestId = m.manifestId → m'.canonicalText = none := by
  have hr : Reachable C S P.state := ⟨P.threads, h⟩
  have hd : Db.Erased C P.state := hr.keeps (.empty C) fun hc => hc.erased hcrew
  have hu : KeyUnique Revision.revisionId P.state.revisions :=
    hr.keeps (I := fun d => KeyUnique Revision.revisionId d.revisions) .nil fun hc => hc.revisionIds
  have hsound := reach_sound h
  obtain ⟨hbodies, htexts⟩ := (reach_evolves h' hsound).2.dropped hsound.inv hu
  refine ⟨fun r hr => (hd.revisions r hr).withdrawn, fun r hr => (hd.revisions r hr).minimized,
    hd.texts, fun m hm text ht => ?_, hbodies, htexts⟩
  obtain ⟨cm, hcm, hs⟩ := hd.held m hm text ht
  refine ⟨cm, hcm, fun s hmem hall => ?_⟩
  obtain ⟨-, r, hr, h1, h2, h3⟩ := hs s hmem
  simpa [h3] using hall r hr h1 h2

/-- the channel no longer shows the post when it is read again. -/
def Sample.withdrawing : List (Turn service (Task Sample.contracts)) :=
  [.start (.acceptRun 105 (.payload (.run Sample.again))), .run 3 100 (answers 8 4000 ⟨[], none⟩),
    .start (.executeOne 10), .run 4 100 (answers 9 5000 ⟨[], none⟩)]

/-- the pool after the sample day, and after the second reading. -/
def Sample.read : Pool service (Task Sample.contracts) Empty Ending :=
  Pool.play (worker Sample.contracts (Sample.setting .one True)) Sample.day ⟨[], Db.empty⟩

def Sample.reread : Pool service (Task Sample.contracts) Empty Ending :=
  Pool.play (worker Sample.contracts (Sample.setting .one True)) Sample.withdrawing Sample.read

theorem Sample.reread_reach : Pool.Reach
    (worker Sample.contracts (Sample.setting .one True)) ⟨[], Db.empty⟩ Sample.reread := by
  refine (Pool.play_reach Sample.day_allowed_one).trans (Pool.play_reach
    ⟨starts_quiet ?_ nofun (by decide +kernel), fun u _ => answers_given _ _ _ _,
      starts_quiet ?_ nofun (by decide +kernel), fun u _ => answers_given _ _ _ _, trivial⟩)
  · rintro _ ⟨⟩
    simp [Sample.setting, Sample.messages]
  · rintro _ ⟨⟩

theorem reread_erased : Sample.read.state.manifests.map (·.canonicalText) = [some "manifest"] ∧
    Sample.reread.state.manifests.map (·.canonicalText) = [none] ∧
    Sample.reread.state.revisions.map (fun r => (r.deletedAt, r.body)) = [(some 9, none)] ∧
    ∀ r ∈ Sample.reread.state.revisions, r.deletedAt.isSome = true → r.body = none :=
  ⟨by decide +kernel, by decide +kernel, by decide +kernel,
    (reachable_erased (by decide) Sample.reread_reach .refl).1⟩

end ChannelDigests
