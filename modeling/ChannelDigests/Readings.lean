import ChannelDigests.Walks
import ChannelDigests.Erasure

/-!
# Posts that were read

After a page is processed, is a post that the walk stores one of those the selection counts?  The
insert does nothing when its text is known, so this depends on what became of the row.

* `processPage`        the posts of one page and its withdrawals;
* `Db.Counts`          the selection counts a revision of the message for a run;
* `read_post_counts_iff`  **a post that was read counts exactly when the page does not mark its message
                       deleted, and the message had a revision that counts or the page shows a text
                       of it that was new**.
-/

namespace ChannelDigests
open Lib Prog

/-- what `execute` does with a page before its checkpoint. -/
def processPage (C : Contracts) (request : AcquisitionRequest) (before : Option Int)
    (page : ProviderPage) (seen : List (Int × Digest)) : Action AcquisitionError Stored := do
  let st ← storePosts C request page.posts ⟨seen, 0, false⟩
  withdrawAbsent request.channelId before page
  return st

/-- the selection of the run counts a revision of the message: it lies in the window, has its text
and is not withdrawn. -/
def Db.Counts (d : Db) (run : PendingRun) (channelId : Uuid) (messageId : Int) : Prop :=
  ∃ r ∈ d.windowRevisions run, r.eligible = true ∧ (∃ c ∈ d.channels, c.channelId = r.channelId) ∧
    r.channelId = channelId ∧ r.messageId = messageId

/-- the page shows a text of the message that the walk stores and that was not stored. -/
def ProviderPage.ShowsNew (page : ProviderPage) (C : Contracts) (request : AcquisitionRequest)
    (d : Db) (messageId : Int) : Prop :=
  ∃ post ∈ page.posts, (∃ published, request.takes post published) ∧ post.messageId = messageId ∧
    ¬ d.stores (request.channelId, messageId, C.textDigest post.body)

section
variable {C : Contracts} {request : AcquisitionRequest} {before : Option Int} {page : ProviderPage}
  {seen : List (Int × Digest)} {d d₁ d₂ d' : Db} {run : PendingRun} {messageId : Int}

/-- a processed page is stored, and then its withdrawals are made. -/
theorem processPage_shows {σ : Type} {p : σ → (q : Question) → q.Answer → σ → Prop}
    {w : World σ} (hseen : ∀ key ∈ seen, d.stores (request.channelId, key)) :
    Walking request p True (fun _ => True) (processPage C request before page seen)
      (fun r d' _ => ∀ st, r = .ok st → ∃ d₁, PageStored C request page.posts d d₁ ∧
        Shown request before page d₁ d') d w := by
  have hs : ∀ {d : Db} {used : Uuid → Prop}, Supplied request True d used :=
    fun hf => absurd trivial hf
  refine walking_bind (storePosts_stores page.posts ⟨seen, 0, false⟩ hs hseen fun _ _ => trivial)
    ?_ fun _ _ _ _ => nofun
  rintro st d₁ w₁ - ⟨-, hd₁, -⟩
  refine walking_bind (Q := fun r d₂ _ => ∀ u, r = .ok u → Shown request before page d₁ d₂) ?_ ?_
    fun _ _ _ _ => nofun
  · exact withdrawAbsent_shows hs (fun _ => trivial) (fun _ => nofun) fun d₂ hd₂ =>
      ⟨trivial, fun _ _ => hd₂⟩
  · exact fun u d₂ w₂ _ hd₂ => ⟨hs, fun _ _ => ⟨d₁, hd₁, hd₂ u rfl⟩⟩

/-- what a page of posts does to the rows of a message that it shows: nothing, or it withdraws them
all when it marks the message deleted. -/
theorem Shown.message (h : Shown request before page d₁ d₂)
    (hpresent : messageId ∈ page.present) {r : Revision} (hc : r.channelId = request.channelId)
    (hm : r.messageId = messageId) (hlive : r.deletedAt = none) :
    r ∈ d₂.revisions ↔ r ∈ d₁.revisions ∧ messageId ∉ page.deleted := by
  have hproved : ∃ proved, provedRange page before = some proved := by
    unfold provedRange
    split
    · exact ⟨_, rfl⟩
    · obtain ⟨p, hp, -⟩ := List.mem_map.mp hpresent
      obtain ⟨q, rest, hposts⟩ := List.exists_cons_of_ne_nil
        (List.ne_nil_of_mem (List.mem_of_mem_filter hp))
      rw [hposts]
      cases hmin : ((q :: rest).map (·.messageId)).min? with
      | none => simp at hmin
      | some lowest => exact ⟨_, rfl⟩
  obtain ⟨proved, hproved⟩ := hproved
  have hgone : gone proved page.present page.deleted messageId = true ↔ messageId ∈ page.deleted := by
    simp [gone, hpresent]
  unfold Shown at h
  rw [hproved] at h
  obtain ⟨now, rfl⟩ := h
  rw [Db.withdraw, mem_updateWhere]
  constructor
  · rintro ⟨o, ho, ⟨-, rfl⟩ | ⟨hnot, rfl⟩⟩
    · cases hlive
    · refine ⟨ho, fun hdel => ?_⟩
      rw [← hgone] at hdel
      simp [hc, hlive, hm, hdel] at hnot
  · rintro ⟨hr, hdel⟩
    refine ⟨r, hr, .inr ⟨?_, rfl⟩⟩
    rw [← hgone, Bool.not_eq_true] at hdel
    simp [hm, hdel]

/-- what the selection counts, over the rows of the channel. -/
theorem counts_iff {channelId : Uuid} (henabled : d.enabled run.ownerId channelId = true)
    (hknown : ∃ c ∈ d.channels, c.channelId = channelId) :
    d.Counts run channelId messageId ↔ ∃ r ∈ d.revisions, r.channelId = channelId ∧
      r.messageId = messageId ∧ r.eligible = true ∧ run.windowStart ≤ r.publishedAt ∧
        r.publishedAt < run.windowEnd := by
  constructor
  · rintro ⟨r, hr, he, -, hc, hm⟩
    obtain ⟨hr, -, hs, hend⟩ := mem_windowRevisions.mp hr
    exact ⟨r, hr, hc, hm, he, hs, hend⟩
  · rintro ⟨r, hr, rfl, hm, he, hs, hend⟩
    exact ⟨r, mem_windowRevisions.mpr ⟨hr, henabled, hs, hend⟩, he, hknown, rfl, hm⟩

/-- the window and the subscriptions are no matter of a page. -/
theorem page_counts (hd₁ : PageStored C request page.posts d d₁)
    (hd₂ : Shown request before page d₁ d₂) (henabled : d.enabled run.ownerId request.channelId = true)
    (hknown : ∃ c ∈ d.channels, c.channelId = request.channelId) :
    d₂.enabled run.ownerId request.channelId = true ∧
      ∃ c ∈ d₂.channels, c.channelId = request.channelId := by
  have h₁ : d₁.subscriptions = d.subscriptions ∧ d₁.channels = d.channels := by
    rw [hd₁.frame]
    exact ⟨rfl, rfl⟩
  have h₂ : d₂.subscriptions = d₁.subscriptions ∧ d₂.channels = d₁.channels := by
    unfold Shown at hd₂
    split at hd₂
    · rw [hd₂]
      exact ⟨rfl, rfl⟩
    · obtain ⟨now, rfl⟩ := hd₂
      exact ⟨rfl, rfl⟩
  unfold Db.enabled at henabled ⊢
  rw [h₂.1, h₁.1, h₂.2, h₁.2]
  exact ⟨henabled, hknown⟩

/-- **A post that was read counts** for a run over the window of the walk exactly when the page does
not mark its message deleted, and the message had a revision that counts or the page shows a text of
it that was not stored before. -/
theorem read_post_counts_iff {σ : Type} {provider : σ → (q : Question) → q.Answer → σ → Prop}
    {w w' : World σ} {st : Stored} (hseen : ∀ key ∈ seen, d.stores (request.channelId, key))
    (hx : Runs (S := service) Eq (World.answers provider True)
      (processPage C request before page seen) d w (.ok st) d' w')
    {post : ProviderPost} {published : Instant} (hpost : post ∈ page.posts)
    (ht : request.takes post published) (hstart : run.windowStart = request.windowStart)
    (hend : run.windowEnd = request.windowEnd)
    (henabled : d.enabled run.ownerId request.channelId = true)
    (hknown : ∃ c ∈ d.channels, c.channelId = request.channelId) :
    d'.Counts run request.channelId post.messageId ↔ post.messageId ∉ page.deleted ∧
      (d.Counts run request.channelId post.messageId ∨
        page.ShowsNew C request d post.messageId) := by
  obtain ⟨_, rfl, -, hq⟩ :=
    (processPage_shows (p := provider) hseen).runs (fun _ => rfl) Eq.trans hx
  obtain ⟨d₁, hd₁, hd₂⟩ := hq st rfl
  have hpresent : post.messageId ∈ page.present := by
    refine List.mem_map_of_mem (List.mem_filter.mpr ⟨hpost, ?_⟩)
    have hs := ht.1
    unfold ProviderPost.storable at hs
    cases hdel : post.deleted with
    | false => rfl
    | true => simp [hdel] at hs
  obtain ⟨hen₂, hkn₂⟩ := page_counts hd₁ hd₂ henabled hknown
  rw [counts_iff hen₂ hkn₂, counts_iff henabled hknown]
  obtain ⟨new, hnew, hrows⟩ := hd₁.rows
  constructor
  · rintro ⟨r, hr, hc, hm, he, hs, hwend⟩
    have hlive : r.deletedAt = none := by
      simp only [Revision.eligible, Bool.and_eq_true, Option.isNone_iff_eq_none] at he
      exact he.2
    obtain ⟨hr, hdel⟩ := (hd₂.message hpresent hc hm hlive).mp hr
    refine ⟨hdel, ?_⟩
    rw [hnew] at hr
    rcases List.mem_append.mp hr with hr | hr
    · exact .inl ⟨r, hr, hc, hm, he, hs, hwend⟩
    · -- the row is new, so its text was not stored.
      obtain ⟨post', hpost', published', id, ht', rfl, hne⟩ := hrows r hr
      refine .inr ⟨post', hpost', ⟨published', ht'⟩, hm, ?_⟩
      rintro ⟨o, ho, hkey⟩
      refine hne o ho (hkey.trans ?_)
      rw [← hm]
      rfl
  · rintro ⟨hdel, ⟨r, hr, hc, hm, he, hs, hwend⟩ | ⟨post', hpost', ⟨published', ht'⟩, hm, hnot⟩⟩
    · have hlive : r.deletedAt = none := by
        simp only [Revision.eligible, Bool.and_eq_true, Option.isNone_iff_eq_none] at he
        exact he.2
      refine ⟨r, (hd₂.message hpresent hc hm hlive).mpr ⟨?_, hdel⟩, hc, hm, he, hs, hwend⟩
      rw [hnew]
      exact List.mem_append_left _ hr
    · obtain ⟨r, hr, hkey⟩ := hd₁.covered post' hpost' published' ht'
      rw [hnew] at hr
      rcases List.mem_append.mp hr with hr | hr
      · exact absurd ⟨r, hr, hm ▸ hkey⟩ hnot
      · have hmem := hr
        obtain ⟨post'', -, published'', id, ht'', rfl, -⟩ := hrows r hr
        have hid : post''.messageId = post.messageId :=
          (congrArg (fun key : Uuid × Int × Digest => key.2.1) hkey).trans hm
        refine ⟨postRow C request post'' published'' id,
          (hd₂.message hpresent rfl hid rfl).mpr ⟨?_, hdel⟩, rfl, hid, rfl, ?_, ?_⟩
        · rw [hnew]
          exact List.mem_append_right _ hmem
        · rw [hstart]
          exact ht''.2.2.1
        · rw [hend]
          exact ht''.2.2.2

end

/-! ## A sample -/

namespace Sample

/-- a third walk over the window. -/
def thirdWalk : AcquisitionRequest := ⟨52, 1991, "rustlang", 0, 1000000000, 3, 1⟩

/-- its run. -/
def thirdRun : PendingRun := ⟨52, 7, 0, 1000000000, .ru, .acquiring, 14⟩

/-- the withdrawn post is back on the page. -/
def backAgain : Action AcquisitionError Stored × Db :=
  Prog.advance (answers 20 6000 page) 20
    (processPage contracts thirdWalk none page [], reread.state)

theorem backAgain_runs : ∃ st, Runs (S := service) Eq
    (World.answers (fun _ _ _ _ => True) True) (processPage contracts thirdWalk none page [])
    reread.state ⟨fun _ => True, ()⟩ (.ok st) backAgain.2 ⟨fun _ => True, ()⟩ := by
  have hcount : backAgain.1.answer?.map (fun r => r.toOption.map (·.count)) = some (some 1) := by
    decide +kernel
  obtain ⟨r, hr, hst⟩ := Option.map_eq_some_iff.mp hcount
  obtain ⟨st, hst, -⟩ := Option.map_eq_some_iff.mp hst
  cases r with
  | error x => cases hst
  | ok st' =>
    refine ⟨st', advance_runs (fun i q => ?_) hr⟩
    cases q with
    | moment => exact ⟨fun hf => absurd trivial hf, by simp, rfl⟩
    | _ => exact ⟨trivial, rfl⟩

end Sample

/-- the page shows a post of the window, and its only text is withdrawn for good. -/
theorem withdrawn_text_final :
    Reachable Sample.contracts (Sample.setting .one True) Sample.reread.state ∧
    (∃ st, Runs (S := service) Eq (World.answers (fun _ _ _ _ => True) True)
      (processPage Sample.contracts Sample.thirdWalk none Sample.page []) Sample.reread.state
      ⟨fun _ => True, ()⟩ (.ok st) Sample.backAgain.2 ⟨fun _ => True, ()⟩) ∧
    (∃ post ∈ Sample.page.posts, Sample.thirdWalk.takes post 1000000 ∧ post.messageId = 5) ∧
    Sample.reread.state.enabled 7 1991 = true ∧
    ¬ Sample.backAgain.2.Counts Sample.thirdRun 1991 5 := by
  refine ⟨⟨_, Sample.reread_reach⟩, Sample.backAgain_runs,
    ⟨_, List.mem_singleton.mpr rfl, ⟨by decide, rfl, by decide, by decide⟩, rfl⟩,
    by decide +kernel, ?_⟩
  rintro ⟨r, hr, he, -⟩
  have hrows : Sample.backAgain.2.revisions.map Revision.eligible = [false] := by decide +kernel
  have hmem := List.mem_map_of_mem (f := Revision.eligible) (mem_windowRevisions.mp hr).1
  rw [hrows, he] at hmem
  cases List.mem_singleton.mp hmem

theorem backAgain_counts_iff : Sample.reread.state.revisions.map Revision.eligible = [false] ∧
    (Sample.backAgain.2.Counts Sample.thirdRun 1991 5 ↔ 5 ∉ Sample.page.deleted ∧
      (Sample.reread.state.Counts Sample.thirdRun 1991 5 ∨
        Sample.page.ShowsNew Sample.contracts Sample.thirdWalk Sample.reread.state 5)) := by
  obtain ⟨st, hx⟩ := Sample.backAgain_runs
  have hknown : (Sample.reread.state.channels.any fun c => decide (c.channelId = 1991)) = true := by
    decide +kernel
  obtain ⟨c, hc, hid⟩ := List.any_eq_true.mp hknown
  exact ⟨by decide +kernel, read_post_counts_iff (fun _ h => by cases h) hx
    (List.mem_singleton.mpr rfl) ⟨by decide, rfl, by decide, by decide⟩ rfl rfl
    (by decide +kernel) ⟨c, hc, of_decide_eq_true hid⟩⟩

end ChannelDigests
