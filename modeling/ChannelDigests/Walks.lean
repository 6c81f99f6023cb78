import ChannelDigests.Rules

/-!
# Walks, page by page

What one walk does when nobody else writes: it reads a page, stores its posts, withdraws what the
page proves gone, and leaves a checkpoint.

* `World`           the outside of a walk: the identities drawn so far and what the provider knows;
* `PageStored`      the state after the posts of a page are stored; `PartStored` on the way there;
* `Shown`           the state after the page withdraws the messages that it proves gone;
* `storePosts_stores`, `withdrawAbsent_shows`   the two loops of a page do that;
* `WalkProof`       the obligations of a proof about walks, one for each thing a walk does;
* `execute_proof`   **a walk alone meets what is proved of it**, wherever it stops.
-/

set_option linter.unusedSectionVars false

namespace ChannelDigests
open Lib Prog

/-! ## The outside -/

/-- the identities that were drawn, and what the provider keeps. -/
structure World (σ : Type) where
  used : Uuid → Prop
  seen : σ

/-- the answers of the outside: unless storage is faulty no statement is lost and identities are
new; the provider answers as it does. -/
def World.answers {σ : Type} (provider : σ → (q : Question) → q.Answer → σ → Prop) (faulty : Prop) :
    World σ → (q : Question) → q.Answer → World σ → Prop
  | w, .moment, m, w' =>
    (¬ faulty → m.fuse = none ∧ ∀ n, ¬ w.used (m.ids n)) ∧
      (∀ u, w'.used u ↔ w.used u ∨ ∃ n, u = m.ids n) ∧ w'.seen = w.seen
  | w, q, a, w' => provider w.seen q a w'.seen ∧ w'.used = w.used

/-- unless storage is faulty every stored identity was drawn, and the channel is known. -/
def Supplied (request : AcquisitionRequest) (faulty : Prop) (d : Db) (used : Uuid → Prop) : Prop :=
  ¬ faulty → (∀ r ∈ d.revisions, used r.revisionId) ∧
    ∃ c ∈ d.channels, c.channelId = request.channelId

/-- a walk alone. -/
theorem World.surrounds {σ : Type} (provider : σ → (q : Question) → q.Answer → σ → Prop)
    (faulty : Prop) : Surrounds (Eq (α := Db)) (World.answers provider faulty) faulty := by
  refine ⟨fun _ => rfl, Eq.trans, fun e m e' he hm => ?_⟩
  by_contra hf
  exact hm (he.1 hf).1

/-! ## Pages -/

namespace AcquisitionRequest

/-- the walk stores the post: it has a text and lies in the window. -/
def takes (request : AcquisitionRequest) (post : ProviderPost) (published : Instant) : Prop :=
  post.storable = true ∧ post.publishedAt = some published ∧ request.windowStart ≤ published ∧
    published < request.windowEnd

/-- the post stops the walk: it has a text and is older than the window. -/
def passes (request : AcquisitionRequest) (post : ProviderPost) : Prop :=
  post.storable = true ∧ ∃ published, post.publishedAt = some published ∧
    published < request.windowStart

end AcquisitionRequest

/-- a revision with this content key is stored. -/
def Db.stores (d : Db) (key : Uuid × Int × Digest) : Prop := ∃ r ∈ d.revisions, r.contentKey = key

section
variable (C : Contracts) (request : AcquisitionRequest)

/-- the row of a post that the walk stores. -/
def postRow (post : ProviderPost) (published : Instant) (revisionId : Uuid) : Revision :=
  (observation request post published).row revisionId (C.textDigest post.body)

/-- some of the posts are stored, each under a key that was new. -/
structure PartStored (posts : List ProviderPost) (d d₁ : Db) : Prop where
  rows : ∃ new, d₁.revisions = d.revisions ++ new ∧ ∀ r ∈ new, ∃ post ∈ posts,
    ∃ published revisionId, request.takes post published ∧ r = postRow C request post published revisionId ∧
      ∀ o ∈ d.revisions, o.contentKey ≠ r.contentKey
  keys : KeyUnique Revision.contentKey d.revisions → KeyUnique Revision.contentKey d₁.revisions
  ids : KeyUnique Revision.revisionId d.revisions → KeyUnique Revision.revisionId d₁.revisions
  frame : d₁ = { d with revisions := d₁.revisions }

/-- every post that the walk stores is stored. -/
structure PageStored (posts : List ProviderPost) (d d₁ : Db) : Prop
    extends PartStored C request posts d d₁ where
  covered : ∀ post ∈ posts, ∀ published, request.takes post published →
    d₁.stores (request.channelId, post.messageId, C.textDigest post.body)

/-- the state after the withdrawals of a page that was requested below `before`. -/
def Shown (before : Option Int) (page : ProviderPage) (d d' : Db) : Prop :=
  match provedRange page before with
  | none => d' = d
  | some proved =>
    ∃ now, d' = d.withdraw request.channelId (gone proved page.present page.deleted) now

/-- where the walk stands after a page. -/
def Cursor.after (at_ : Cursor) (page : ProviderPage) (reached : Bool) (count : Nat) : Cursor :=
  ⟨if reached then none else page.nextBeforeMessageId, at_.pages + 1, at_.revisions + count⟩

end

section
variable {C : Contracts} {request : AcquisitionRequest} {posts : List ProviderPost}
  {post : ProviderPost} {d d₁ d₂ : Db}

theorem Db.stores.append {key : Uuid × Int × Digest} {new : List Revision} (h : d.stores key)
    (hr : d₁.revisions = d.revisions ++ new) : d₁.stores key := by
  obtain ⟨r, hr', hk⟩ := h
  exact ⟨r, by rw [hr]; exact List.mem_append_left _ hr', hk⟩

theorem PartStored.refl (posts : List ProviderPost) (d : Db) : PartStored C request posts d d where
  rows := ⟨[], by simp, by simp⟩
  keys h := h
  ids h := h
  frame := rfl

/-- what is stored of the rest of a page is stored of the page. -/
theorem PartStored.skip (h : PartStored C request posts d d₁) :
    PartStored C request (post :: posts) d d₁ where
  rows := by
    obtain ⟨new, hnew, hrows⟩ := h.rows
    refine ⟨new, hnew, fun r hr => ?_⟩
    obtain ⟨p, hp, h⟩ := hrows r hr
    exact ⟨p, List.mem_cons_of_mem _ hp, h⟩
  keys := h.keys
  ids := h.ids
  frame := h.frame

theorem PartStored.kept {key : Uuid × Int × Digest} (h : PartStored C request posts d d₁)
    (hk : d.stores key) : d₁.stores key := by
  obtain ⟨new, hnew, -⟩ := h.rows
  exact hk.append hnew

/-- what is stored after a part of a page was stored before or is of the page. -/
theorem PartStored.origin {key : Uuid × Int × Digest} (h : PartStored C request posts d d₁)
    (hk : d₁.stores key) : d.stores key ∨ ∃ post ∈ posts, ∃ published,
      request.takes post published ∧
        key = (request.channelId, post.messageId, C.textDigest post.body) := by
  obtain ⟨new, hnew, hrows⟩ := h.rows
  obtain ⟨r, hr, rfl⟩ := hk
  rw [hnew] at hr
  rcases List.mem_append.mp hr with hr | hr
  · exact .inl ⟨r, hr, rfl⟩
  · obtain ⟨post, hpost, published, id, ht, rfl, -⟩ := hrows r hr
    exact .inr ⟨post, hpost, published, ht, rfl⟩

/-- an append changes nothing, or it adds the row. -/
theorem appendRevision_some {row : Revision} (h : d.appendRevision row = some d₁) :
    (d₁ = d ∧ d.stores row.contentKey) ∨
      (d₁ = { d with revisions := d.revisions ++ [row] } ∧
        (∀ o ∈ d.revisions, o.contentKey ≠ row.contentKey) ∧
        ∀ o ∈ d.revisions, o.revisionId ≠ row.revisionId) := by
  unfold Db.appendRevision at h
  split_ifs at h with hk hid hc
  · cases h
    simp only [List.any_eq_true, decide_eq_true_eq] at hk
    exact .inl ⟨rfl, hk⟩
  · cases h
    simp only [List.any_eq_true, decide_eq_true_eq, not_exists, not_and] at hk hid
    exact .inr ⟨rfl, hk, hid⟩

/-- after an append its key is stored, -/
theorem appendRevision_stores {row : Revision} (h : d.appendRevision row = some d₁) :
    d₁.stores row.contentKey := by
  rcases appendRevision_some h with ⟨rfl, hk⟩ | ⟨rfl, -⟩
  · exact hk
  · exact ⟨row, by simp, rfl⟩

/-- and the keys that were stored are. -/
theorem appendRevision_keeps {row : Revision} {key : Uuid × Int × Digest}
    (h : d.appendRevision row = some d₁) (hk : d.stores key) : d₁.stores key := by
  rcases appendRevision_some h with ⟨rfl, -⟩ | ⟨rfl, -⟩
  · exact hk
  · exact hk.append rfl

/-- an append is refused for a taken identity or an unknown channel only. -/
theorem appendRevision_none {row : Revision} (h : d.appendRevision row = none) :
    (∃ o ∈ d.revisions, o.revisionId = row.revisionId) ∨
      ∀ c ∈ d.channels, c.channelId ≠ row.channelId := by
  unfold Db.appendRevision at h
  split_ifs at h with hk hid hc
  · simp only [List.any_eq_true, decide_eq_true_eq] at hid
    exact .inl hid
  · simp only [List.all_eq_true, decide_eq_true_eq] at hc
    exact .inr hc

/-- a stored post, then the rest of its page. -/
theorem PartStored.cons {published : Instant} {revisionId : Uuid}
    (ht : request.takes post published)
    (ha : d.appendRevision (postRow C request post published revisionId) = some d₁)
    (h : PartStored C request posts d₁ d₂) : PartStored C request (post :: posts) d d₂ := by
  obtain ⟨new, hnew, hrows⟩ := h.rows
  rcases appendRevision_some ha with ⟨rfl, -⟩ | ⟨rfl, hk, hid⟩
  · exact h.skip
  · refine ⟨⟨postRow C request post published revisionId :: new, by simp [hnew], fun r hr => ?_⟩,
      fun hu => h.keys (hu.snoc hk), fun hu => h.ids (hu.snoc hid), h.frame⟩
    rcases List.mem_cons.mp hr with rfl | hr
    · exact ⟨post, List.mem_cons_self, published, revisionId, ht, rfl, hk⟩
    · obtain ⟨p, hp, pub, id, htp, rfl, hne⟩ := hrows r hr
      exact ⟨p, List.mem_cons_of_mem _ hp, pub, id, htp, rfl,
        fun o ho => hne o (List.mem_append_left _ ho)⟩

/-- a checkpoint is the lease of its channel and run. -/
theorem Db.lease_putLease (d : Db) (row : Lease) :
    (d.putLease row).lease row.channelId row.runId = some row := by
  unfold Db.putLease
  split_ifs with h
  · exact find?_updateWhere (by simp) h
  · rw [Bool.not_eq_true, Option.isSome_eq_false_iff, Option.isNone_iff_eq_none] at h
    exact List.find?_append.trans (by
      rw [show d.leases.find? _ = none from h]
      simp)

theorem PartStored.lease (h : PartStored C request posts d d₁) : d₁.lease = d.lease := by
  rw [h.frame]
  rfl

theorem Shown.lease {before : Option Int} {page : ProviderPage}
    (h : Shown request before page d d₁) : d₁.lease = d.lease := by
  unfold Shown at h
  split at h
  · rw [h]
  · obtain ⟨now, rfl⟩ := h
    rfl

end

/-! ## Storing and withdrawing -/

section
variable {C : Contracts} {request : AcquisitionRequest} {σ : Type}
  {provider : σ → (q : Question) → q.Answer → σ → Prop} {faulty : Prop} {J : Db → Prop} {d : Db}
  {w : World σ}

/-- a part of a walk alone: every state on the way meets `J`, and `Q` is known of its outcome. -/
abbrev Walking (request : AcquisitionRequest) (provider : σ → (q : Question) → q.Answer → σ → Prop)
    (faulty : Prop) (J : Db → Prop) {α : Type} (p : Action AcquisitionError α)
    (Q : Except AcquisitionError α → Db → σ → Prop) (d : Db) (w : World σ) : Prop :=
  Safe (S := service) Eq (World.answers provider faulty) (always fun _ d' => J d') p
    (fun r d' w' => Supplied request faulty d' w'.used ∧ Q r d' w'.seen) d w

theorem walking_bind {α β : Type} {p : Action AcquisitionError α}
    {k : α → Action AcquisitionError β} {Q : Except AcquisitionError α → Db → σ → Prop}
    {Q' : Except AcquisitionError β → Db → σ → Prop}
    (hp : Walking request provider faulty J p Q d w)
    (hok : ∀ a d' w', Supplied request faulty d' w'.used → Q (.ok a) d' w'.seen →
      Walking request provider faulty J (k a) Q' d' w')
    (herr : ∀ x d' y, Q (.error x) d' y → Q' (.error x) d' y) :
    Walking request provider faulty J (p >>= k) Q' d w := by
  refine (safe_bind (S := service) _ _ _).mpr (Safe.imp (fun r d' w' h => ?_) hp)
  rcases r with x | a
  · exact ⟨h.1, herr x d' _ h.2⟩
  · exact hok a d' w' h.1 h.2

/-- identities that are drawn stay drawn. -/
theorem Supplied.later {used used' : Uuid → Prop} (h : Supplied request faulty d used)
    (hu : ∀ u, used u → used' u) : Supplied request faulty d used' := fun hf =>
  ⟨fun r hr => hu _ ((h hf).1 r hr), (h hf).2⟩

/-- a statement that adds no revision and keeps the channels. -/
theorem walking_change {α : Type} {f : Moment → Db → Db} {g : Moment → Db → α}
    {Q : Except AcquisitionError α → Db → σ → Prop}
    (hs : Supplied request faulty d w.used)
    (hr : ∀ m, (f m d).revisions.map (·.revisionId) = d.revisions.map (·.revisionId))
    (hc : ∀ m, (f m d).channels = d.channels) (hJ : faulty → J d)
    (hE : faulty → Q (.error .unavailable) d w.seen)
    (h : ∀ m, J (f m d) ∧ Q (.ok (g m d)) (f m d) w.seen) :
    Walking request provider faulty J (statement fun m => .change .unavailable (f m) (g m)) Q d w := by
  refine safe_transaction (World.surrounds provider faulty) ?_
  rintro m s' w' ⟨-, hused, hseen⟩ rfl
  have hs' : Supplied request faulty d w'.used := hs.later fun u hu => (hused u).mpr (.inl hu)
  refine ⟨fun hf => ⟨hJ hf, hs', hseen ▸ hE hf⟩, (h m).1, fun hf => ⟨fun r hr' => ?_, ?_⟩,
    hseen ▸ (h m).2⟩
  · have hmem := List.mem_map_of_mem (f := (·.revisionId)) hr'
    rw [hr m] at hmem
    obtain ⟨o, ho, hid⟩ := List.mem_map.mp hmem
    exact hid ▸ (hs' hf).1 o ho
  · rw [hc m]
    exact (hs' hf).2

/-- storing one post of a page. -/
theorem append_stores {post : ProviderPost} {published : Instant}
    {Q : Except AcquisitionError Unit → Db → σ → Prop} (hs : Supplied request faulty d w.used)
    (hJ : faulty → J d) (hE : faulty → Q (.error .unavailable) d w.seen)
    (h : ∀ revisionId d₁,
      d.appendRevision (postRow C request post published revisionId) = some d₁ →
        J d₁ ∧ Q (.ok ()) d₁ w.seen) :
    Walking request provider faulty J (append C .unavailable (observation request post published)) Q
      d w := by
  refine safe_transaction (World.surrounds provider faulty) ?_
  rintro m s' w' ⟨hfresh, hused, hseen⟩ rfl
  have hs' : Supplied request faulty d w'.used := hs.later fun u hu => (hused u).mpr (.inl hu)
  unfold Tx.closes
  simp only [Tx.wp_bind, guarded, Tx.wp_attempt]
  refine ⟨fun hf => ⟨hJ hf, hs', hseen ▸ hE hf⟩, fun _ d₁ hd₁ => ?_, fun x hx => ?_⟩
  · split at hd₁
    · cases hd₁
    · next d₂ hd₂ =>
      cases hd₁
      obtain ⟨hj, hq⟩ := h _ _ hd₂
      refine ⟨hj, fun hf => ?_, hseen ▸ hq⟩
      rcases appendRevision_some hd₂ with ⟨rfl, -⟩ | ⟨rfl, -, -⟩
      · exact hs' hf
      · refine ⟨fun r hr => ?_, (hs' hf).2⟩
        rcases List.mem_append.mp hr with hr | hr
        · exact (hs' hf).1 r hr
        · obtain rfl := List.mem_singleton.mp hr
          exact (hused _).mpr (.inr ⟨0, rfl⟩)
  · split at hx
    · next hd₂ =>
      cases hx
      -- a new identity and a known channel: only a faulty storage refuses the row.
      have hf : faulty := by
        by_contra hf
        rcases appendRevision_none hd₂ with ⟨o, ho, hid⟩ | hunknown
        · have hused := (hs hf).1 o ho
          rw [show o.revisionId = m.ids 0 from hid] at hused
          exact (hfresh hf).2 0 hused
        · obtain ⟨c, hc, hid⟩ := (hs hf).2
          exact hunknown c hc hid
      exact ⟨hJ hf, hs', hseen ▸ hE hf⟩
    · cases hx

/-- what is known of the posts of a page once they are processed. -/
def Stores (C : Contracts) (request : AcquisitionRequest) (faulty : Prop)
    (posts : List ProviderPost) (reached : Bool) (d : Db) (x : σ) :
    Except AcquisitionError Stored → Db → σ → Prop
  | .ok st, d₁, x' => x' = x ∧ PageStored C request posts d d₁ ∧
      (∀ key ∈ st.seen, d₁.stores (request.channelId, key)) ∧
      (st.reachedStart = true ↔ reached = true ∨ ∃ post ∈ posts, request.passes post)
  | .error _, d₁, x' => x' = x ∧ PartStored C request posts d d₁ ∧
      (faulty ∨ ∃ post ∈ posts, post.storable = true ∧ post.publishedAt = none)

theorem AcquisitionRequest.takes.not_passes {post : ProviderPost} {published : Instant}
    (h : request.takes post published) : ¬ request.passes post := by
  rintro ⟨-, early, hearly, hlt⟩
  rw [h.2.1] at hearly
  cases hearly
  exact absurd h.2.2.1 (not_le.mpr hlt)

/-- a post that adds no row: it is not to be stored, or it was. -/
theorem Stores.skip {posts : List ProviderPost} {post : ProviderPost} {b b' : Bool} {x x' : σ}
    {r : Except AcquisitionError Stored} {d₁ : Db}
    (hcov : ∀ published, request.takes post published →
      d.stores (request.channelId, post.messageId, C.textDigest post.body))
    (hb : b' = true ↔ b = true ∨ request.passes post)
    (h : Stores C request faulty posts b' d x r d₁ x') :
    Stores C request faulty (post :: posts) b d x r d₁ x' := by
  rcases r with err | st
  · obtain ⟨hx, hp, hbad⟩ := h
    exact ⟨hx, hp.skip, hbad.imp_right fun ⟨p, hp, h⟩ => ⟨p, List.mem_cons_of_mem _ hp, h⟩⟩
  · obtain ⟨hx, hp, hk, hr⟩ := h
    refine ⟨hx, ⟨hp.toPartStored.skip, fun p hmem published ht => ?_⟩, hk, ?_⟩
    · rcases List.mem_cons.mp hmem with rfl | hmem
      · exact hp.kept (hcov published ht)
      · exact hp.covered p hmem published ht
    · rw [hr, hb]
      simp [or_assoc]

/-- a post that is stored, then the rest of its page. -/
theorem Stores.append {posts : List ProviderPost} {post : ProviderPost} {published : Instant}
    {revisionId : Uuid} {b : Bool} {x x' : σ} {r : Except AcquisitionError Stored} {d₁ d₂ : Db}
    (ht : request.takes post published)
    (ha : d.appendRevision (postRow C request post published revisionId) = some d₁)
    (h : Stores C request faulty posts b d₁ x r d₂ x') :
    Stores C request faulty (post :: posts) b d x r d₂ x' := by
  rcases r with err | st
  · obtain ⟨hx, hp, hbad⟩ := h
    exact ⟨hx, hp.cons ht ha, hbad.imp_right fun ⟨p, hp, h⟩ => ⟨p, List.mem_cons_of_mem _ hp, h⟩⟩
  · obtain ⟨hx, hp, hk, hr⟩ := h
    refine ⟨hx, ⟨hp.toPartStored.cons ht ha, fun p hmem pub htp => ?_⟩, hk, ?_⟩
    · rcases List.mem_cons.mp hmem with rfl | hmem
      · exact hp.kept (appendRevision_stores ha)
      · exact hp.covered p hmem pub htp
    · rw [hr]
      simp [ht.not_passes]

/-- **The loop over the posts of a page stores them.** -/
theorem storePosts_stores (posts : List ProviderPost) (st : Stored)
    (hs : Supplied request faulty d w.used)
    (hseen : ∀ key ∈ st.seen, d.stores (request.channelId, key))
    (hJ : ∀ d₁, PartStored C request posts d d₁ → J d₁) :
    Walking request provider faulty J (storePosts C request posts st)
      (Stores C request faulty posts st.reachedStart d w.seen) d w := by
  induction posts generalizing st d w with
  | nil =>
    refine ⟨hs, rfl, ⟨.refl [] d, fun _ h => by cases h⟩, hseen, ?_⟩
    simp
  | cons post posts ih =>
    -- the rest of the page after a post that adds no row.
    have skip : ∀ b' : Bool, (∀ published, request.takes post published →
          d.stores (request.channelId, post.messageId, C.textDigest post.body)) →
        (b' = true ↔ st.reachedStart = true ∨ request.passes post) →
        Walking request provider faulty J
          (storePosts C request posts { st with reachedStart := b' })
          (Stores C request faulty (post :: posts) st.reachedStart d w.seen) d w :=
      fun b' hcov hb => Safe.imp (fun _ _ _ h => ⟨h.1, h.2.skip hcov hb⟩)
        (ih { st with reachedStart := b' } hs hseen fun d₁ h => hJ d₁ h.skip)
    unfold storePosts
    split_ifs with hnot
    · rw [Bool.not_eq_true'] at hnot
      refine skip st.reachedStart (fun _ ht => ?_) ?_
      · rw [ht.1] at hnot
        cases hnot
      · simp [AcquisitionRequest.passes, hnot]
    rw [Bool.not_eq_true', Bool.not_eq_false] at hnot
    split
    · next hunreadable =>
      exact ⟨hs, rfl, .refl _ d, .inr ⟨post, List.mem_cons_self, hnot, hunreadable⟩⟩
    next published hpublished =>
    have hat : ∀ {p}, request.takes post p → p = published := fun ht => by
      have := ht.2.1
      rw [hpublished] at this
      exact (Option.some.inj this).symm
    dsimp only
    split_ifs with hold hnew hkey
    · refine skip true (fun p ht => ?_) ?_
      · have := ht.2.2.1
        rw [hat ht] at this
        exact absurd this (not_le.mpr hold)
      · simpa using Or.inr ⟨hnot, published, hpublished, hold⟩
    · refine skip st.reachedStart (fun p ht => ?_) ?_
      · have := ht.2.2.2
        rw [hat ht] at this
        exact absurd hnew (not_le.mpr this)
      · simp only [iff_self_or]
        rintro ⟨-, p, hp, hlt⟩
        rw [hpublished] at hp
        cases hp
        exact absurd hlt hold
    · refine skip st.reachedStart (fun _ _ => hseen _ (List.contains_iff_mem.mp hkey)) ?_
      simp only [iff_self_or]
      rintro ⟨-, p, hp, hlt⟩
      rw [hpublished] at hp
      cases hp
      exact absurd hlt hold
    · have ht : request.takes post published :=
        ⟨hnot, hpublished, not_lt.mp hold, not_le.mp hnew⟩
      refine walking_bind (Q := fun r d₁ x => x = w.seen ∧ match r with
        | .ok _ => ∃ revisionId,
            d.appendRevision (postRow C request post published revisionId) = some d₁
        | .error _ => d₁ = d ∧ faulty) ?_ ?_ ?_
      · exact append_stores hs (fun _ => hJ d (.refl _ d)) (fun hf => ⟨rfl, rfl, hf⟩)
          fun id d₁ h => ⟨hJ d₁ (.cons ht h (.refl posts d₁)), rfl, id, h⟩
      · rintro - d₁ w₁ hs₁ ⟨hx, id, ha⟩
        refine Safe.imp (fun _ _ _ h => ⟨h.1, (hx ▸ h.2).append ht ha⟩)
          (ih _ hs₁ (fun key hmem => ?_) fun d₂ h => hJ d₂ (h.cons ht ha))
        rcases List.mem_cons.mp hmem with rfl | hmem
        · exact appendRevision_stores ha
        · exact appendRevision_keeps ha (hseen key hmem)
      · rintro err d₁ x ⟨hx, rfl, hf⟩
        exact ⟨hx, .refl _ d₁, .inl hf⟩

/-- a withdrawal keeps what names a revision. -/
theorem withdraw_map {κ : Type} {channelId : Uuid} {g : Int → Bool} {now : Instant}
    (key : Revision → κ) (h : ∀ r, key (Revision.withdraw now r) = key r) :
    (d.withdraw channelId g now).revisions.map key = d.revisions.map key :=
  map_updateWhere key fun r _ => h r

theorem stores_iff {key : Uuid × Int × Digest} :
    d.stores key ↔ key ∈ d.revisions.map Revision.contentKey := by
  rw [List.mem_map]
  exact Iff.rfl

/-- withdrawals keep the rows. -/
theorem Shown.stores_iff {before : Option Int} {page : ProviderPage} {d' : Db}
    {key : Uuid × Int × Digest} (h : Shown request before page d d') :
    d'.stores key ↔ d.stores key := by
  unfold Shown at h
  split at h
  · rw [h]
  · obtain ⟨now, rfl⟩ := h
    rw [ChannelDigests.stores_iff, withdraw_map Revision.contentKey fun _ => rfl,
      ChannelDigests.stores_iff]

theorem Shown.stores {before : Option Int} {page : ProviderPage} {d' : Db}
    {key : Uuid × Int × Digest} (h : Shown request before page d d') (hk : d.stores key) :
    d'.stores key := h.stores_iff.mpr hk

/-- **A page withdraws what it proves gone.** -/
theorem withdrawAbsent_shows {before : Option Int} {page : ProviderPage}
    {Q : Except AcquisitionError Unit → Db → σ → Prop} (hs : Supplied request faulty d w.used)
    (hJ : faulty → J d) (hE : faulty → Q (.error .unavailable) d w.seen)
    (h : ∀ d', Shown request before page d d' → J d' ∧ Q (.ok ()) d' w.seen) :
    Walking request provider faulty J (withdrawAbsent request.channelId before page) Q d w := by
  unfold withdrawAbsent
  unfold Shown at h
  rcases hp : provedRange page before with _ | proved
  · exact ⟨hs, (h d (by rw [hp])).2⟩
  · simp only [hp] at h
    exact walking_change hs (fun _ => withdraw_map Revision.revisionId fun _ => rfl)
      (fun _ => rfl) hJ hE fun m => h _ ⟨m.now, rfl⟩

/-- a checkpoint. -/
theorem checkpoint_leases {at_ : Cursor} {state : CheckpointState} {wait : Option Nat}
    {Q : Except AcquisitionError Unit → Db → σ → Prop} (hs : Supplied request faulty d w.used)
    (hJ : faulty → J d) (hE : faulty → Q (.error .unavailable) d w.seen)
    (h : ∀ holder now, J (d.putLease (checkpointLease request at_ state wait holder now)) ∧
      Q (.ok ()) (d.putLease (checkpointLease request at_ state wait holder now)) w.seen) :
    Walking request provider faulty J (checkpoint request at_ state wait) Q d w :=
  walking_change hs (fun _ => rfl) (fun _ => rfl) hJ hE fun m => h (m.ids 0) m.now

end

/-! ## Walks -/

/-- the provider does not answer a request of a walk that has `n` pages left. -/
def Fails {σ : Type} (provider : σ → (q : Question) → q.Answer → σ → Prop)
    (request : AcquisitionRequest) (n : Nat) (at_ : Cursor) (x x' : σ) : Prop :=
  (∃ reply, (∀ channel, reply ≠ .ok channel) ∧ provider x (.resolve request.username) reply x') ∨
    0 < n ∧ ∃ channel reply, (∀ page, reply ≠ .ok page) ∧
      provider x (.fetch channel at_.before (min request.pageSize 100)) reply x'

/-- what is proved of a walk: `Start` holds when it starts, `Head` where it may ask for a page and
has `n` pages left, `Good` of the report that it gives, `Lost` when it gives none, and `J` of every
state. -/
structure WalkProof {σ : Type} (C : Contracts) (request : AcquisitionRequest)
    (provider : σ → (q : Question) → q.Answer → σ → Prop) (faulty : Prop) (J : Db → Prop)
    (Start : Db → σ → Prop) (Head : Nat → Cursor → Db → σ → Prop)
    (Good : AcquisitionReport → Db → σ → Prop) (Lost : Db → σ → Prop) : Prop where
  started : ∀ {d x}, Start d x → J d
  refused : ∀ {d x}, Start d x → (faulty ∨ ∃ now err, resumeFrom
    (d.lease request.channelId request.runId) request.maxPages now = .error err) → Lost d x
  resumed : ∀ {d x now at_}, Start d x →
    resumeFrom (d.lease request.channelId request.runId) request.maxPages now = .ok at_ →
    Head (request.maxPages - at_.pages) at_ d x
  safe : ∀ {n at_ d x}, Head n at_ d x → J d
  lost : ∀ {n at_ d x}, Head n at_ d x →
    (faulty ∨ publicUsername request.username = false) → Lost d x
  resolved : ∀ {n at_ d x channel x'}, Head n at_ d x →
    provider x (.resolve request.username) (.ok channel) x' → Head n at_ d x'
  missed : ∀ {n at_ d x x'}, Head n at_ d x → Fails provider request n at_ x x' → Lost d x'
  waits : ∀ {n at_ d x x'} wait holder now, Head n at_ d x → Fails provider request n at_ x x' →
    J (d.putLease (checkpointLease request at_ .floodWait (some wait) holder now)) ∧
      Lost (d.putLease (checkpointLease request at_ .floodWait (some wait) holder now)) x'
  down : ∀ {n at_ d x x'} holder now, Head n at_ d x → Fails provider request n at_ x x' →
    0 < at_.pages →
    J (d.putLease (checkpointLease request at_ .providerUnavailable none holder now)) ∧
      Good ⟨at_.pages, at_.revisions, true⟩
        (d.putLease (checkpointLease request at_ .providerUnavailable none holder now)) x'
  part : ∀ {n at_ d x channel page x' d₁}, Head (n + 1) at_ d x →
    provider x (.fetch channel at_.before (min request.pageSize 100)) (.ok page) x' →
    PartStored C request page.posts d d₁ → J d₁ ∧
      (faulty ∨ (∃ post ∈ page.posts, post.storable = true ∧ post.publishedAt = none) → Lost d₁ x')
  shown : ∀ {n at_ d x channel page x' d₁ d₂}, Head (n + 1) at_ d x →
    provider x (.fetch channel at_.before (min request.pageSize 100)) (.ok page) x' →
    PageStored C request page.posts d d₁ → Shown request at_.before page d₁ d₂ →
    J d₂ ∧ (faulty → Lost d₂ x')
  next : ∀ {n at_ d x channel page x' d₁ d₂ reached count} holder now, Head (n + 1) at_ d x →
    provider x (.fetch channel at_.before (min request.pageSize 100)) (.ok page) x' →
    PageStored C request page.posts d d₁ → Shown request at_.before page d₁ d₂ →
    (reached = true ↔ ∃ post ∈ page.posts, request.passes post) →
    Head (if (at_.after page reached count).before.isNone then 0 else n)
      (at_.after page reached count)
      (d₂.putLease
        (checkpointLease request (at_.after page reached count) .pageCommitted none holder now)) x'
  finish : ∀ {at_ d x} holder now, Head 0 at_ d x →
    J (d.putLease (checkpointLease request at_
        (if at_.before.isSome then .pageLimit else .completed) none holder now)) ∧
      Good ⟨at_.pages, at_.revisions, at_.before.isSome⟩ (d.putLease (checkpointLease request at_
        (if at_.before.isSome then .pageLimit else .completed) none holder now)) x

/-- how a walk ends. -/
def Ended {σ : Type} (Good : AcquisitionReport → Db → σ → Prop) (Lost : Db → σ → Prop) :
    Except AcquisitionError AcquisitionReport → Db → σ → Prop
  | .ok report, d, x => Good report d x
  | .error _, d, x => Lost d x

section
variable {σ : Type} {C : Contracts} {request : AcquisitionRequest}
  {provider : σ → (q : Question) → q.Answer → σ → Prop} {faulty : Prop} {J : Db → Prop}
  {Start Lost : Db → σ → Prop} {Good : AcquisitionReport → Db → σ → Prop}
  {Head : Nat → Cursor → Db → σ → Prop}
  (P : WalkProof C request provider faulty J Start Head Good Lost) {d : Db} {w : World σ}
include P

theorem finish_proof {at_ : Cursor} (hs : Supplied request faulty d w.used)
    (h : Head 0 at_ d w.seen) :
    Walking request provider faulty J (finish request at_) (Ended Good Lost) d w := by
  refine walking_bind (Q := fun r d' x => Ended Good Lost
    (r.map fun _ => ⟨at_.pages, at_.revisions, at_.before.isSome⟩) d' x) ?_ ?_ fun _ _ _ h => h
  · exact checkpoint_leases hs (fun _ => P.safe h) (fun hf => P.lost h (.inl hf))
      fun holder now => P.finish holder now h
  · exact fun _ d' w' hs' hgood => ⟨hs', hgood⟩

/-- a provider wait is stored, and the walk is deferred. -/
theorem wait_proof {α : Type} {n : Nat} {at_ : Cursor} {wait : Nat} {x : σ}
    {Q : Except AcquisitionError α → Db → σ → Prop} (hs : Supplied request faulty d w.used)
    (h : Head n at_ d x) (hfails : Fails provider request n at_ x w.seen)
    (hQ : ∀ err d x, Lost d x → Q (.error err) d x) :
    Walking request provider faulty J
      (checkpoint request at_ .floodWait (some wait) >>= fun _ => Prog.fail .deferred) Q d w := by
  refine walking_bind (Q := fun _ d' x => Lost d' x) ?_ ?_ fun err d' x h => hQ err d' x h
  · exact checkpoint_leases hs (fun _ => P.safe h) (fun _ => P.missed h hfails)
      fun holder now => P.waits wait holder now h hfails
  · exact fun _ d' w' hs' hlost => ⟨hs', hQ _ _ _ hlost⟩

/-- one page: its posts, its withdrawals and its checkpoint. -/
theorem page_proof {channel n : Nat} {at_ : Cursor} {seen : List (Int × Digest)}
    {page : ProviderPage} {x : σ} {k : Stored → Action AcquisitionError AcquisitionReport}
    (hs : Supplied request faulty d w.used)
    (hseen : ∀ key ∈ seen, d.stores (request.channelId, key)) (h : Head (n + 1) at_ d x)
    (hreply : provider x (.fetch channel at_.before (min request.pageSize 100)) (.ok page) w.seen)
    (hk : ∀ st d' w', Supplied request faulty d' w'.used →
      (∀ key ∈ st.seen, d'.stores (request.channelId, key)) →
      Head (if (at_.after page st.reachedStart st.count).before.isNone then 0 else n)
        (at_.after page st.reachedStart st.count) d' w'.seen →
      Walking request provider faulty J (k st) (Ended Good Lost) d' w') :
    Walking request provider faulty J
      (storePosts C request page.posts ⟨seen, 0, false⟩ >>= fun st =>
        withdrawAbsent request.channelId at_.before page >>= fun _ =>
          checkpoint request (at_.after page st.reachedStart st.count) .pageCommitted none >>=
            fun _ => k st) (Ended Good Lost) d w := by
  refine walking_bind (storePosts_stores page.posts ⟨seen, 0, false⟩ hs hseen
    fun d₁ hd₁ => (P.part h hreply hd₁).1) ?_ ?_
  · rintro st d₁ w₁ hs₁ ⟨hw₁, hd₁, hseen₁, hreached⟩
    have hpart := P.part h hreply hd₁.toPartStored
    have hreached' : st.reachedStart = true ↔ ∃ post ∈ page.posts, request.passes post := by
      simpa using hreached
    refine walking_bind (Q := fun r d₂ x => x = w.seen ∧ match r with
      | .ok _ => Shown request at_.before page d₁ d₂
      | .error _ => Lost d₂ x) ?_ ?_ fun _ _ _ hq => hq.2
    · refine withdrawAbsent_shows hs₁ (fun _ => hpart.1)
        (fun hf => ⟨hw₁, hw₁ ▸ hpart.2 (.inl hf)⟩) fun d₂ hd₂ => ?_
      exact ⟨(P.shown h hreply hd₁ hd₂).1, hw₁, hd₂⟩
    · rintro _ d₂ w₂ hs₂ ⟨hw₂, hd₂⟩
      have hshown := P.shown h hreply hd₁ hd₂
      have hnext : ∀ holder now,
          Head (if (at_.after page st.reachedStart st.count).before.isNone then 0 else n)
            (at_.after page st.reachedStart st.count)
            (d₂.putLease (checkpointLease request (at_.after page st.reachedStart st.count)
              .pageCommitted none holder now)) w.seen :=
        fun holder now => P.next holder now h hreply hd₁ hd₂ hreached'
      refine walking_bind (Q := fun r d₃ x => x = w.seen ∧ match r with
        | .ok _ => ∃ holder now, d₃ = d₂.putLease (checkpointLease request
            (at_.after page st.reachedStart st.count) .pageCommitted none holder now)
        | .error _ => Lost d₃ x) ?_ ?_ fun _ _ _ hq => hq.2
      · refine checkpoint_leases hs₂ (fun _ => hshown.1) (fun hf => ⟨hw₂, hw₂ ▸ hshown.2 hf⟩)
          fun holder now => ?_
        exact ⟨P.safe (hnext holder now), hw₂, holder, now, rfl⟩
      · rintro _ d₃ w₃ hs₃ ⟨hw₃, holder, now, rfl⟩
        exact hk st _ w₃ hs₃ (fun key hkey => hd₂.stores (hseen₁ key hkey))
          (hw₃ ▸ hnext holder now)
  · rintro err d₁ x ⟨hx, hd₁, hbad⟩
    exact hx ▸ (P.part h hreply hd₁).2 hbad

/-- the pages of a walk. -/
theorem walk_proof {channel : Nat} (n : Nat) (at_ : Cursor) (seen : List (Int × Digest))
    (hs : Supplied request faulty d w.used)
    (hseen : ∀ key ∈ seen, d.stores (request.channelId, key)) (h : Head n at_ d w.seen) :
    Walking request provider faulty J (walk C request channel n at_ seen) (Ended Good Lost) d w := by
  induction n generalizing at_ seen d w with
  | zero => exact finish_proof P hs h
  | succ n ih =>
    unfold walk
    refine walking_bind (Q := fun r d' x => d' = d ∧ ∃ reply, r = .ok reply ∧
      provider w.seen (.fetch channel at_.before (min request.pageSize 100)) reply x) ?_ ?_ ?_
    · rintro s' rfl reply w' ⟨hreply, hused⟩
      exact ⟨hused ▸ hs, rfl, reply, rfl, hreply⟩
    · rintro reply d' w₁ hs₁ ⟨rfl, reply', hr, hreply⟩
      cases hr
      have hfails : (∀ page, reply ≠ .ok page) →
          Fails provider request (n + 1) at_ w.seen w₁.seen :=
        fun hp => .inr ⟨Nat.succ_pos n, channel, reply, hp, hreply⟩
      split
      · exact wait_proof P hs₁ h (hfails (by simp)) fun _ _ _ h => h
      · next page =>
        refine page_proof P hs₁ hseen h hreply fun st d₁ w₂ hs₂ hseen₂ hhead => ?_
        refine (safe_ite (S := service) _ _ _ _).mpr
          ⟨fun hb : (at_.after page st.reachedStart st.count).before.isNone = true => ?_,
            fun hb : ¬ (at_.after page st.reachedStart st.count).before.isNone = true => ?_⟩
        · rw [if_pos hb] at hhead
          exact finish_proof P hs₂ hhead
        · rw [if_neg hb] at hhead
          exact ih (at_.after page st.reachedStart st.count) st.seen hs₂ hseen₂ hhead
      · next hpage =>
        have hfails := hfails fun page hp => hpage page hp
        split_ifs with hpages
        · refine walking_bind (Q := fun r d₁ x => Ended Good Lost
            (r.map fun _ => ⟨at_.pages, at_.revisions, true⟩) d₁ x) ?_ ?_ fun _ _ _ h => h
          · exact checkpoint_leases hs₁ (fun _ => P.safe h) (fun _ => P.missed h hfails)
              fun holder now => P.down holder now h hfails hpages
          · exact fun _ d₁ w₂ hs₂ hgood => ⟨hs₂, hgood⟩
        · exact ⟨hs₁, P.missed h hfails⟩
    · rintro err d' x ⟨-, reply, hr, -⟩
      cases hr

/-- the lease that a walk starts from. -/
theorem resume_proof (hs : Supplied request faulty d w.used) (h : Start d w.seen) :
    Walking request provider faulty J (resume request) (fun r d' x => match r with
      | .ok at_ => Head (request.maxPages - at_.pages) at_ d' x
      | .error _ => Lost d' x) d w := by
  unfold resume
  refine walking_bind (Q := fun r d' x => match r with
    | .ok start => Start d' x ∧ ∃ now, start =
        resumeFrom (d'.lease request.channelId request.runId) request.maxPages now
    | .error _ => Lost d' x) ?_ ?_ fun _ _ _ h => h
  · exact walking_change (f := fun _ d => d) hs (fun _ => rfl) (fun _ => rfl)
      (fun _ => P.started h) (fun hf => P.refused h (.inl hf)) fun m => ⟨P.started h, h, m.now, rfl⟩
  · rintro start d' w' hs' ⟨hstart, now, rfl⟩
    rcases hat : resumeFrom (d'.lease request.channelId request.runId) request.maxPages now with
      err | at_
    · exact ⟨hs', P.refused hstart (.inr ⟨now, err, hat⟩)⟩
    · exact ⟨hs', P.resumed hstart hat⟩

/-- the channel is resolved before the first page. -/
theorem resolve_proof {n : Nat} {at_ : Cursor} (hs : Supplied request faulty d w.used)
    (h : Head n at_ d w.seen) :
    Walking request provider faulty J (resolve request at_) (fun r d' x => match r with
      | .ok _ => Head n at_ d' x
      | .error _ => Lost d' x) d w := by
  unfold resolve
  refine walking_bind (Q := fun r d' x => d' = d ∧ ∃ reply, r = .ok reply ∧
    provider w.seen (.resolve request.username) reply x) ?_ ?_ ?_
  · rintro s' rfl reply w' ⟨hreply, hused⟩
    exact ⟨hused ▸ hs, rfl, reply, rfl, hreply⟩
  · rintro reply d' w' hs' ⟨rfl, _, hr, hreply⟩
    cases hr
    split
    · exact ⟨hs', P.resolved h hreply⟩
    · exact wait_proof P hs' h (.inl ⟨_, by simp, hreply⟩) fun _ _ _ h => h
    · next hok _ =>
      exact ⟨hs', P.missed h (.inl ⟨_, fun channel hc => hok channel hc, hreply⟩)⟩
  · rintro err d' x ⟨-, reply, hr, -⟩
    cases hr

/-- **A walk alone meets what is proved of it**, wherever it stops. -/
theorem execute_proof (hs : Supplied request faulty d w.used) (h : Start d w.seen) :
    Walking request provider faulty J (execute C request) (Ended Good Lost) d w := by
  unfold execute
  refine walking_bind (resume_proof P hs h) ?_ fun _ _ _ h => h
  intro at_ d' w' hs' hhead
  refine (safe_ite (S := service) _ _ _ _).mpr ⟨fun hname => ?_, fun _ => ?_⟩
  · exact ⟨hs', P.lost hhead (.inr (by simpa using hname))⟩
  · exact walking_bind (resolve_proof P hs' hhead)
      (fun channel d₁ w₁ hs₁ hhead' => walk_proof P _ at_ [] hs₁ (fun _ h => by cases h) hhead')
      fun _ _ _ h => h

end

end ChannelDigests
