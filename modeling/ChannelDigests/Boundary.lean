import ChannelDigests.Thorough

/-!
# Where a walk ends

A provider that shows one page after the other, and a walk that stops at the first page that
proves the window read.  `store_page` skips a post without a text before it looks at its time, so
a page that is older than the window may not stop the walk.

* `leafing`        the provider shows these pages, one a request;
* `older`, `halts`  what the claim looks at on a page, and what the code stops at;
* `EndsAtStart`    what is asked of a call that was shown `k` pages;
* `PagesRead`      which pages a call is shown, and what it then reports;
* `ends_at_start_iff`  **the walk ends at the window start iff the first page that it can reach and
                   that is older than the window halts it**.
-/

namespace ChannelDigests
open Lib Prog

/-! ## Pages in a row -/

/-- the provider fails nowhere and shows these pages, one a request. -/
def leafing (pages : Nat → ProviderPage) : Nat → (q : Question) → q.Answer → Nat → Prop
  | k, .resolve _, reply, k' => (∃ channel, reply = .ok channel) ∧ k' = k
  | k, .fetch _ _ _, reply, k' => reply = .ok (pages k) ∧ k' = k + 1
  | k, _, _, k' => k' = k

/-- the time of every post with a text can be read. -/
def Readable (pages : Nat → ProviderPage) : Prop :=
  ∀ i, ∀ post ∈ (pages i).posts, post.storable = true → post.publishedAt ≠ none

/-- later posts have smaller ids and are no younger, on a page and from page to page. -/
structure NewestFirst (pages : Nat → ProviderPage) : Prop where
  within : ∀ i, (pages i).posts.Pairwise fun p q => q.messageId < p.messageId
  across : ∀ i j, i < j → ∀ p ∈ (pages i).posts, ∀ q ∈ (pages j).posts, q.messageId < p.messageId
  aging : ∀ i j, ∀ p ∈ (pages i).posts, ∀ q ∈ (pages j).posts, q.messageId < p.messageId →
    ∀ s t, p.publishedAt = some s → q.publishedAt = some t → t ≤ s

namespace AcquisitionRequest

/-- the page holds a post published before the window, whatever its text. -/
def older (request : AcquisitionRequest) (page : ProviderPage) : Prop :=
  ∃ post ∈ page.posts, ∃ published, post.publishedAt = some published ∧
    published < request.windowStart

/-- the walk goes no further than the page: it holds a post older than the window whose text may
be stored, or it is the last one. -/
def halts (request : AcquisitionRequest) (page : ProviderPage) : Prop :=
  (∃ post ∈ page.posts, request.passes post) ∨ page.nextBeforeMessageId = none

end AcquisitionRequest

/-- where a call starts that no wait puts off. -/
def startCursor (lease : Option Lease) (maxPages : Nat) : Cursor :=
  match lease with
  | none => ⟨none, 0, 0⟩
  | some l =>
    if l.checkpoint.state = .completed then ⟨none, maxPages, l.checkpoint.revisions⟩
    else ⟨l.checkpoint.beforeMessageId, l.checkpoint.pages, l.checkpoint.revisions⟩

theorem resumeFrom_ok {lease : Option Lease} {maxPages : Nat} {now : Instant} {at_ : Cursor}
    (h : resumeFrom lease maxPages now = .ok at_) : at_ = startCursor lease maxPages := by
  cases lease with
  | none =>
    cases h
    rfl
  | some l =>
    unfold resumeFrom at h
    unfold startCursor
    dsimp only at h ⊢
    split_ifs at h ⊢ <;> cases h <;> rfl

theorem resumeFrom_error {lease : Option Lease} {maxPages : Nat} {now : Instant}
    {x : AcquisitionError} (h : resumeFrom lease maxPages now = .error x) : x = .deferred := by
  cases lease with
  | none => cases h
  | some l =>
    unfold resumeFrom at h
    dsimp only at h
    split_ifs at h
    cases h
    rfl

section
variable (request : AcquisitionRequest) (pages : Nat → ProviderPage) (at_ : Cursor)

/-- the next cursor of the last of `k` pages. -/
def lastCursor : Nat → Option Int
  | 0 => at_.before
  | k + 1 => (pages k).nextBeforeMessageId

/-- what is asked of a call from `at_` that was shown `k` pages and ended with `r`. -/
structure EndsAtStart (k : Nat) (r : Except AcquisitionError AcquisitionReport) : Prop where
  /-- no page is requested after one that is older than the window. -/
  last : ∀ i < k, request.older (pages i) → i + 1 = k
  partly : ∀ report, r = .ok report → report.isPartial = true →
    request.maxPages ≤ at_.pages + k ∧ (∀ i < k, ¬ request.older (pages i)) ∧
      (lastCursor pages at_ k).isSome

/-- the first page within reach that is older than the window halts the walk. -/
def StartShows : Prop :=
  ∀ i < request.maxPages - at_.pages, (∀ j < i, ¬ request.halts (pages j)) →
    request.older (pages i) → request.halts (pages i)

/-- the pages that a call is shown, and what it then says. -/
structure PagesRead (k : Nat) (report : AcquisitionReport) : Prop where
  bound : k ≤ request.maxPages - at_.pages
  before : ∀ j, j + 1 < k → ¬ request.halts (pages j)
  halted : k = request.maxPages - at_.pages ∨ ∃ j, k = j + 1 ∧ request.halts (pages j)
  partly : report.isPartial = true ↔
    (∀ j < k, ¬ request.halts (pages j)) ∧ (lastCursor pages at_ k).isSome

/-- where a call stands that was shown `k` pages and may ask for `n` more. -/
structure ShownSoFar (n : Nat) (c : Cursor) (k : Nat) : Prop where
  counted : c.pages = at_.pages + k
  bound : k ≤ request.maxPages - at_.pages
  before : ∀ j, j + 1 < k → ¬ request.halts (pages j)
  place : (n = request.maxPages - c.pages ∧ c.before = lastCursor pages at_ k ∧
      ∀ j < k, ¬ request.halts (pages j)) ∨
    (n = 0 ∧ c.before = none ∧ ∃ j, k = j + 1 ∧ request.halts (pages j))

end

section
variable {request : AcquisitionRequest} {pages : Nat → ProviderPage} {at_ : Cursor} {k : Nat}
  {report : AcquisitionReport}

/-- a call that reads pages as the code does ends at the window start when the first older page
shows it, -/
theorem PagesRead.ends (h : PagesRead request pages at_ k report)
    (hs : StartShows request pages at_) : EndsAtStart request pages at_ k (.ok report) where
  last i hi hold := by
    by_contra hne
    have hnone : ∀ j < i, ¬ request.halts (pages j) := fun j hj => h.before j (by omega)
    have hbound := h.bound
    exact h.before i (by omega) (hs i (by omega) hnone hold)
  partly := by
    rintro _ ⟨⟩ hp
    obtain ⟨hnone, hcursor⟩ := h.partly.mp hp
    have hk : k = request.maxPages - at_.pages := by
      rcases h.halted with hk | ⟨j, rfl, hj⟩
      · exact hk
      · exact absurd hj (hnone j (Nat.lt_succ_self j))
    refine ⟨by omega, fun i hi hold => hnone i hi ?_, hcursor⟩
    exact hs i (by omega) (fun j hj => hnone j (by omega)) hold

/-- and only then. -/
theorem PagesRead.shows (h : PagesRead request pages at_ k report)
    (he : EndsAtStart request pages at_ k (.ok report)) : StartShows request pages at_ := by
  intro i hi hnone hold
  by_contra hgoes
  have hik : i < k := by
    by_contra hki
    rcases h.halted with hk | ⟨j, rfl, hj⟩
    · omega
    · exact hnone j (by omega) hj
  obtain rfl := he.last i hik hold
  -- no page halted the walk, so it ended at the page limit with a next cursor.
  have hall : ∀ j < i + 1, ¬ request.halts (pages j) := fun j hj => by
    rcases Nat.lt_succ_iff_lt_or_eq.mp hj with hj | rfl
    · exact hnone j hj
    · exact hgoes
  have hnext : (lastCursor pages at_ (i + 1)).isSome := by
    show (pages i).nextBeforeMessageId.isSome
    rw [Option.isSome_iff_ne_none]
    exact fun hn => hgoes (.inr hn)
  exact (he.partly report rfl (h.partly.mpr ⟨hall, hnext⟩)).2.1 i hik hold

/-- nothing is asked of a call that requests no page and gives no report. -/
theorem EndsAtStart.unasked {x : AcquisitionError} :
    EndsAtStart request pages at_ 0 (.error x) where
  last i hi := absurd hi (Nat.not_lt_zero i)
  partly _ hr := by cases hr

/-! ## The walk -/

theorem ShownSoFar.start (request : AcquisitionRequest) (pages : Nat → ProviderPage) (at_ : Cursor) :
    ShownSoFar request pages at_ (request.maxPages - at_.pages) at_ 0 where
  counted := rfl
  bound := Nat.zero_le _
  before _ hj := absurd hj (Nat.not_lt_zero _)
  place := .inl ⟨rfl, rfl, fun j hj => absurd hj (Nat.not_lt_zero j)⟩

/-- the next page. -/
theorem ShownSoFar.next {n count : Nat} {c : Cursor} {reached : Bool}
    (h : ShownSoFar request pages at_ (n + 1) c k)
    (hr : reached = true ↔ ∃ post ∈ (pages k).posts, request.passes post) :
    ShownSoFar request pages at_ (if (c.after (pages k) reached count).before.isNone then 0 else n)
      (c.after (pages k) reached count) (k + 1) := by
  obtain ⟨hn, hc, hnone⟩ : n + 1 = request.maxPages - c.pages ∧ c.before = lastCursor pages at_ k ∧
      ∀ j < k, ¬ request.halts (pages j) :=
    h.place.resolve_right fun hz => absurd hz.1 (Nat.succ_ne_zero n)
  have hcounted := h.counted
  refine ⟨?_, by omega, fun j hj => hnone j (by omega), ?_⟩
  · show c.pages + 1 = at_.pages + (k + 1)
    omega
  have hafter : (c.after (pages k) reached count).before =
      if reached then none else (pages k).nextBeforeMessageId := rfl
  by_cases hhalts : request.halts (pages k)
  · have hnone : (c.after (pages k) reached count).before = none := by
      rcases hhalts with hp | hp
      · rw [hafter, hr.mpr hp]
        rfl
      · rw [hafter, hp]
        exact ite_self _
    rw [hnone]
    exact .inr ⟨rfl, rfl, k, rfl, hhalts⟩
  · have hreached : reached = false := by
      rw [Bool.eq_false_iff]
      exact fun hp => hhalts (.inl (hr.mp hp))
    have hsome : (pages k).nextBeforeMessageId.isNone = false := by
      rw [Option.isNone_eq_false_iff, Option.isSome_iff_ne_none]
      exact fun hp => hhalts (.inr hp)
    rw [hafter, hreached, if_neg Bool.false_ne_true, hsome, if_neg Bool.false_ne_true]
    refine .inl ⟨?_, rfl, fun j hj => ?_⟩
    · show n = request.maxPages - (c.pages + 1)
      omega
    · rcases Nat.lt_succ_iff_lt_or_eq.mp hj with hj | rfl
      · exact hnone j hj
      · exact hhalts

/-- at the end of the loop. -/
theorem ShownSoFar.finish {c : Cursor} (h : ShownSoFar request pages at_ 0 c k) :
    PagesRead request pages at_ k ⟨c.pages, c.revisions, c.before.isSome⟩ := by
  have hcounted := h.counted
  have hbound := h.bound
  refine ⟨hbound, h.before, ?_, ?_⟩
  · rcases h.place with ⟨hn, -⟩ | ⟨-, -, hj⟩
    · exact .inl (by omega)
    · exact .inr hj
  · rcases h.place with ⟨-, hc, hnone⟩ | ⟨-, hc, j, rfl, hj⟩
    · show c.before.isSome = true ↔ _
      rw [hc, and_iff_right hnone]
    · show c.before.isSome = true ↔ _
      rw [hc]
      refine iff_of_false Bool.false_ne_true fun hall => ?_
      exact hall.1 j (Nat.lt_succ_self j) hj

theorem leafing_answers {n : Nat} {c : Cursor} {x x' : Nat} :
    ¬ Fails (leafing pages) request n c x x' := by
  rintro (⟨reply, hne, ⟨channel, rfl⟩, -⟩ | ⟨-, channel, reply, hne, rfl, -⟩)
  · exact hne channel rfl
  · exact hne _ rfl

/-- a call reads the pages in a row until one halts it or its page limit is reached. -/
theorem leafingProof (C : Contracts) (at_ : Cursor) (hread : Readable pages)
    (hname : publicUsername request.username = true) :
    WalkProof C request (leafing pages) False (fun _ => True) (fun _ _ => False)
      (fun n c _ k => ShownSoFar request pages at_ n c k)
      (fun report _ k => PagesRead request pages at_ k report) (fun _ _ => False) where
  started h := h.elim
  refused h := h.elim
  resumed h := h.elim
  safe _ := trivial
  lost _ h := by
    rcases h with hf | hf
    · exact hf
    · rw [hname] at hf
      cases hf
  resolved h hp := by
    rw [hp.2]
    exact h
  missed _ hf := leafing_answers hf
  waits _ _ _ _ hf := (leafing_answers hf).elim
  down _ _ _ hf := (leafing_answers hf).elim
  part := by
    rintro n c d k channel page k' d₁ - ⟨hpage, rfl⟩ -
    cases hpage
    refine ⟨trivial, ?_⟩
    rintro (hf | ⟨post, hpost, hst, hnone⟩)
    · exact hf
    · exact hread k post hpost hst hnone
  shown _ _ _ _ := ⟨trivial, id⟩
  next := by
    rintro n c d k channel page k' d₁ d₂ reached count holder now h ⟨hpage, rfl⟩ - - hr
    cases hpage
    exact h.next hr
  finish _ _ h := ⟨trivial, h.finish⟩

end

/-! ## The call -/

section
variable {C : Contracts} {request : AcquisitionRequest} {σ : Type}
  {provider : σ → (q : Question) → q.Answer → σ → Prop} {d d' : Db} {w w' : World σ}

/-- reading the lease changes nothing. -/
theorem resume_reads {r : Except AcquisitionError Cursor} (hs : Supplied request False d w.used)
    (h : Runs (S := service) Eq (World.answers provider False) (resume request) d w r d' w') :
    d' = d ∧ w'.seen = w.seen ∧ Supplied request False d w'.used ∧
      ∃ now, r = resumeFrom (d.lease request.channelId request.runId) request.maxPages now := by
  have hsafe : Walking request provider False (fun _ => True) (resume request)
      (fun r d₁ x => d₁ = d ∧ x = w.seen ∧
        ∃ now, r = resumeFrom (d.lease request.channelId request.runId) request.maxPages now)
      d w := by
    unfold resume
    refine walking_bind (Q := fun r d₁ x => d₁ = d ∧ x = w.seen ∧ match r with
      | .ok start => ∃ now, start =
          resumeFrom (d.lease request.channelId request.runId) request.maxPages now
      | .error _ => False) ?_ ?_ fun _ _ _ h => h.2.2.elim
    · exact walking_change (f := fun _ d => d) hs (fun _ => rfl) (fun _ => rfl)
        (fun _ => trivial) (fun hf => hf.elim) fun m => ⟨trivial, rfl, rfl, m.now, rfl⟩
    · rintro start d₁ w₁ hs₁ ⟨rfl, hx, now, rfl⟩
      exact ⟨hs₁, rfl, hx, now, rfl⟩
  obtain ⟨_, rfl, hs', rfl, hx, hnow⟩ := hsafe.runs (fun _ => rfl) Eq.trans h
  exact ⟨rfl, hx, hs', hnow⟩

end

/-- **A call ends at the window start iff the first page within its reach that is older than the
window also shows it to the code**: by a post with a text that may be stored, or as the last page.
A call that a stored wait puts off, or whose channel has no acceptable name, requests no page. -/
theorem ends_at_start_iff (C : Contracts) {pages : Nat → ProviderPage} (hread : Readable pages)
    {request : AcquisitionRequest} {d d' : Db} {w w' : World Nat}
    {r : Except AcquisitionError AcquisitionReport} (hs : Supplied request False d w.used)
    (h0 : w.seen = 0) (h : Walks C (leafing pages) False request d w r d' w') :
    let at_ := startCursor (d.lease request.channelId request.runId) request.maxPages
    (r = .error .deferred ∨ publicUsername request.username = false →
      EndsAtStart request pages at_ w'.seen r) ∧
    (r ≠ .error .deferred → publicUsername request.username = true →
      (EndsAtStart request pages at_ w'.seen r ↔ StartShows request pages at_)) := by
  intro at_
  unfold Walks execute at h
  obtain ⟨r₁, d₁, w₁, hresume, hrest⟩ := Runs.of_bind h
  obtain ⟨rfl, hx, hs₁, now, rfl⟩ := resume_reads hs hresume
  rcases hat : resumeFrom (d₁.lease request.channelId request.runId) request.maxPages now with
    x | at'
  · rw [hat] at hrest
    obtain ⟨rfl, rfl⟩ := hrest.of_done
    rw [resumeFrom_error hat, hx, h0]
    exact ⟨fun _ => .unasked, fun hne => absurd rfl hne⟩
  rw [hat] at hrest
  obtain rfl : at' = at_ := resumeFrom_ok hat
  dsimp only at hrest
  by_cases hname : publicUsername request.username = true
  · rw [hname, Bool.not_true, if_neg Bool.false_ne_true] at hrest
    have P := leafingProof C at_ hread hname
    have hhead : ShownSoFar request pages at_ (request.maxPages - at_.pages) at_ w₁.seen := by
      rw [hx, h0]
      exact ShownSoFar.start request pages at_
    have hsafe : Walking request (leafing pages) False (fun _ => True)
        (resolve request at_ >>= fun channel =>
          walk C request channel (request.maxPages - at_.pages) at_ [])
        (Ended (fun report _ k => PagesRead request pages at_ k report) fun _ _ => False) d₁ w₁ :=
      walking_bind (resolve_proof P hs₁ hhead)
        (fun channel d₂ w₂ hs₂ hhead' =>
          walk_proof P _ at_ [] hs₂ (fun _ h => by cases h) hhead')
        fun _ _ _ h => h
    obtain ⟨_, -, -, hend⟩ := hsafe.runs (fun _ => rfl) Eq.trans hrest
    cases r with
    | error x => exact hend.elim
    | ok report =>
      have hread : PagesRead request pages at_ w'.seen report := hend
      refine ⟨?_, fun _ _ => ⟨hread.shows, hread.ends⟩⟩
      rintro (hr | hr)
      · cases hr
      · rw [hname] at hr
        cases hr
  · rw [Bool.not_eq_true] at hname
    rw [hname, Bool.not_false, if_pos rfl] at hrest
    obtain ⟨rfl, rfl⟩ := hrest.of_done
    rw [hx, h0]
    refine ⟨fun _ => .unasked, fun _ ht => ?_⟩
    rw [hname] at ht
    cases ht

/-! ## A sample -/

namespace Sample

/-- a walk of two pages. -/
def quiet : AcquisitionRequest := ⟨50, 1, "rustlang", 1000000000, 2000000000, 2, 100⟩

/-- a channel that holds photos without a text, all of them before the window. -/
def photos (i : Nat) : ProviderPage := ⟨[⟨90 - i, "", some 1000000, false⟩], some (90 - i)⟩

/-- the provider turns to the next page with every request. -/
def turning (pages : Nat → ProviderPage) (k : Nat) : (q : Question) → q.Answer
  | .moment => ⟨0, id, none⟩
  | .resolve _ => .ok 0
  | .fetch _ _ _ => .ok (pages k)
  | .publish _ => true

theorem turning_leafing (pages : Nat → ProviderPage) (q : Question) (k : Nat) :
    leafing pages k q (turning pages k q) (count q k) := by
  cases q with
  | resolve username => exact ⟨⟨0, rfl⟩, rfl⟩
  | fetch channel before limit => exact ⟨rfl, rfl⟩
  | _ => exact rfl

theorem photos_newest_first : NewestFirst photos where
  within i := List.pairwise_singleton _ _
  across i j hij p hp q hq := by
    rw [List.mem_singleton.mp hp, List.mem_singleton.mp hq]
    dsimp only
    omega
  aging i j p hp q hq _ s t hs ht := by
    rw [List.mem_singleton.mp hp] at hs
    rw [List.mem_singleton.mp hq] at ht
    rw [← Option.some.inj hs, ← Option.some.inj ht]

theorem photos_readable : Readable photos := fun i post hpost _ => by
  rw [List.mem_singleton.mp hpost]
  exact Option.some_ne_none _

/-- the walk over the photos. -/
def photoWalk : Action AcquisitionError AcquisitionReport × Db × World Nat :=
  roam 1000 100 (turning photos) count 40 (execute contracts quiet) known ⟨fun _ => False, 0⟩

theorem photoWalk_answers : photoWalk.1.answer? = some (.ok ⟨2, 0, true⟩) := by decide +kernel

theorem photoWalk_exec : Exec (S := service) Eq (World.answers (leafing photos) False)
    (execute contracts quiet, known, ⟨fun _ => False, 0⟩) photoWalk :=
  (roam_exec (turning_leafing photos) _ _ _ _ _ fun _ _ _ h => h).1

end Sample

theorem photoWalk_ends :
    Sample.photoWalk.1.answer? = some (.ok ⟨2, 0, true⟩) ∧
    (EndsAtStart Sample.quiet Sample.photos ⟨none, 0, 0⟩ 2 (.ok ⟨2, 0, true⟩) ↔
      StartShows Sample.quiet Sample.photos ⟨none, 0, 0⟩) := by
  refine ⟨Sample.photoWalk_answers, ?_⟩
  have hs : Supplied Sample.quiet False Sample.known fun _ => False :=
    fun _ => ⟨fun r hr => (by cases hr), _, List.mem_singleton.mpr rfl, rfl⟩
  have hends := (ends_at_start_iff Sample.contracts Sample.photos_readable
    (w := ⟨fun _ => False, 0⟩) hs rfl
    (runs_of_answer Sample.photoWalk_exec Sample.photoWalk_answers)).2 (fun h => by cases h)
    (by decide +kernel)
  have hseen : Sample.photoWalk.2.2.seen = 2 := by decide +kernel
  rw [hseen] at hends
  exact hends

/-- newest-first pages whose first one is older than the window, and a walk that asks for the next
page and ends partial at the page limit. -/
theorem photo_hides_start : ¬ ∀ pages, NewestFirst pages → Readable pages →
    ∀ (d d' : Db) (w w' : World Nat) r, Supplied Sample.quiet False d w.used → w.seen = 0 →
      Walks Sample.contracts (leafing pages) False Sample.quiet d w r d' w' →
      EndsAtStart Sample.quiet pages
        (startCursor (d.lease Sample.quiet.channelId Sample.quiet.runId) Sample.quiet.maxPages)
        w'.seen r := by
  intro h
  have hends := h Sample.photos Sample.photos_newest_first Sample.photos_readable Sample.known _
    ⟨fun _ => False, 0⟩ _ _
    (fun _ => ⟨fun r hr => (by cases hr), _, List.mem_singleton.mpr rfl, rfl⟩) rfl
    (runs_of_answer Sample.photoWalk_exec Sample.photoWalk_answers)
  have hseen : Sample.photoWalk.2.2.seen = 2 := by decide +kernel
  rw [hseen] at hends
  have hlast := hends.last 0 (by decide) ⟨_, List.mem_singleton.mpr rfl, _, rfl, by decide⟩
  cases hlast

end ChannelDigests
