import ChannelDigests.Walks
import ChannelDigests.Lib.Paging
import Mathlib.Data.Nat.Pairing

/-!
# Channels upstream

What a channel holds, what an honest provider shows of it, and several walks in a row.

* `ChannelContent`   the posts of a channel, newest first;
* `page`             the newest posts below a cursor, with the next cursor after a full page;
* `page_holds`       a page shows every post between its two cursors;
* `after`            where the next page of a walk starts;
* `Calls`            calls of `execute`, one after the other.
-/

namespace ChannelDigests
open Lib Prog

/-- one post of a channel. -/
structure ChannelPost where
  messageId : Int
  body : String
  publishedAt : Instant
  deriving DecidableEq

/-- the post as the provider shows it. -/
def ChannelPost.shown (p : ChannelPost) : ProviderPost :=
  ⟨p.messageId, p.body, some p.publishedAt, false⟩

/-- the walk stores the post: it lies in the window and has a text of at most 16384 bytes. -/
def AcquisitionRequest.wants (request : AcquisitionRequest) (p : ChannelPost) : Prop :=
  0 < p.body.utf8ByteSize ∧ p.body.utf8ByteSize ≤ maxContentBytes ∧
    request.windowStart ≤ p.publishedAt ∧ p.publishedAt < request.windowEnd

/-- the text of the post is stored. -/
def Db.storesPost (d : Db) (C : Contracts) (channelId : Uuid) (p : ChannelPost) : Prop :=
  d.stores (channelId, p.messageId, C.textDigest p.body)

/-- the posts of a channel, newest first. -/
structure ChannelContent where
  posts : List ChannelPost
  falling : Falling ChannelPost.messageId posts

namespace ChannelContent

/-- the newest `limit` posts below the cursor. -/
def below (content : ChannelContent) (before : Option Int) (limit : Nat) : List ChannelPost :=
  pageOf ChannelPost.messageId before limit content.posts

/-- the page of an honest provider. -/
def page (content : ChannelContent) (before : Option Int) (limit : Nat) : ProviderPage :=
  ⟨(content.below before limit).map ChannelPost.shown,
    cursorAfter ChannelPost.messageId limit (content.below before limit)⟩

/-- the page shows a post that is older than the window. -/
def reaches (content : ChannelContent) (request : AcquisitionRequest) (before : Option Int) : Bool :=
  (content.below before (min request.pageSize 100)).any fun p =>
    decide (0 < p.body.utf8ByteSize) && decide (p.body.utf8ByteSize ≤ maxContentBytes) &&
      decide (p.publishedAt < request.windowStart)

/-- where the walk goes on after the page at a cursor. -/
def after (content : ChannelContent) (request : AcquisitionRequest) (before : Option Int) :
    Option Int :=
  if content.reaches request before then none
  else cursorAfter ChannelPost.messageId (min request.pageSize 100)
    (content.below before (min request.pageSize 100))

end ChannelContent

section
variable {content : ChannelContent} {request : AcquisitionRequest} {before : Option Int}
  {limit : Nat} {p : ChannelPost}

theorem ChannelPost.shown_storable :
    p.shown.storable = true ↔ 0 < p.body.utf8ByteSize ∧ p.body.utf8ByteSize ≤ maxContentBytes := by
  rw [ProviderPost.storable, Bool.not_eq_true', Bool.or_eq_false_iff, decide_eq_false_iff_not,
    show p.shown.deleted = false from rfl, Bool.false_or, decide_eq_false_iff_not]
  exact and_congr Nat.pos_iff_ne_zero.symm not_lt

theorem takes_shown {published : Instant} :
    request.takes p.shown published ↔ published = p.publishedAt ∧ request.wants p := by
  unfold AcquisitionRequest.takes AcquisitionRequest.wants
  rw [ChannelPost.shown_storable]
  constructor
  · rintro ⟨⟨h0, h1⟩, hp, hs, he⟩
    cases hp
    exact ⟨rfl, h0, h1, hs, he⟩
  · rintro ⟨rfl, h0, h1, hs, he⟩
    exact ⟨⟨h0, h1⟩, rfl, hs, he⟩

/-- every post between the two cursors of a page is on it. -/
theorem ChannelContent.page_holds (hn : 0 < limit) (hp : p ∈ content.posts)
    (hb : ∀ b, before = some b → p.messageId < b)
    (hc : ∀ c, (content.page before limit).nextBeforeMessageId = some c → c ≤ p.messageId) :
    p ∈ content.below before limit :=
  pageOf_complete content.falling hn hp hb hc

theorem ChannelContent.mem_below (h : p ∈ content.below before limit) :
    p ∈ content.posts ∧ ∀ b, before = some b → p.messageId < b := mem_pageOf h

/-- nothing on a page lies below its next cursor. -/
theorem ChannelContent.next_le {c : Int}
    (hc : (content.page before limit).nextBeforeMessageId = some c)
    (h : p ∈ content.below before limit) : c ≤ p.messageId :=
  cursorAfter_le content.falling.pageOf hc h

/-- what the walk says of the window start is what the page shows of it. -/
theorem ChannelContent.reaches_iff :
    content.reaches request before = true ↔
      ∃ post ∈ (content.page before (min request.pageSize 100)).posts, request.passes post := by
  simp only [reaches, page, List.any_eq_true, List.mem_map, AcquisitionRequest.passes,
    Bool.and_eq_true, decide_eq_true_eq]
  constructor
  · rintro ⟨p, hp, ⟨h0, h1⟩, hs⟩
    exact ⟨p.shown, ⟨p, hp, rfl⟩, ChannelPost.shown_storable.mpr ⟨h0, h1⟩, p.publishedAt, rfl, hs⟩
  · rintro ⟨_, ⟨p, hp, rfl⟩, hst, _, hpub, hs⟩
    cases hpub
    exact ⟨p, hp, ChannelPost.shown_storable.mp hst, hs⟩

theorem ChannelContent.after_eq {reached : Bool} {at_ : Cursor} {count : Nat}
    (h : reached = true ↔ ∃ post ∈ (content.page at_.before (min request.pageSize 100)).posts,
      request.passes post) :
    at_.after (content.page at_.before (min request.pageSize 100)) reached count =
      ⟨content.after request at_.before, at_.pages + 1, at_.revisions + count⟩ := by
  have hreached : reached = content.reaches request at_.before := by
    rw [Bool.eq_iff_iff, h, ChannelContent.reaches_iff]
  rw [hreached]
  rfl

/-- the posts of an honest page are readable. -/
theorem ChannelContent.page_readable {post : ProviderPost}
    (h : post ∈ (content.page before limit).posts) : post.publishedAt ≠ none := by
  obtain ⟨p, -, rfl⟩ := List.mem_map.mp h
  simp [ChannelPost.shown]

/-- the key under which the text of a wanted post is stored. -/
def Wanted (C : Contracts) (request : AcquisitionRequest) (posts : List ChannelPost)
    (key : Uuid × Int × Digest) : Prop :=
  ∃ p ∈ posts, request.wants p ∧ key = (request.channelId, p.messageId, C.textDigest p.body)

/-- what is stored after a part of an honest page. -/
theorem PartStored.wanted {C : Contracts} {d d₁ : Db} {key : Uuid × Int × Digest}
    (h : PartStored C request (content.page before limit).posts d d₁) (hk : d₁.stores key) :
    d.stores key ∨ Wanted C request (content.below before limit) key := by
  refine (h.origin hk).imp_right fun ⟨post, hpost, published, ht, hkey⟩ => ?_
  obtain ⟨p, hp, rfl⟩ := List.mem_map.mp hpost
  exact ⟨p, hp, (takes_shown.mp ht).2, hkey⟩

/-- after a page is stored, its posts are. -/
theorem PageStored.stores {C : Contracts} {d d₁ : Db}
    (h : PageStored C request (content.page before limit).posts d d₁)
    (hp : p ∈ content.below before limit) (hw : request.wants p) :
    d₁.storesPost C request.channelId p :=
  h.covered p.shown (List.mem_map_of_mem hp) p.publishedAt (takes_shown.mpr ⟨rfl, hw⟩)

/-- an honest page adds the keys of its wanted posts. -/
theorem PageStored.stores_iff {C : Contracts} {d d₁ d₂ : Db} {key : Uuid × Int × Digest}
    (h : PageStored C request (content.page before limit).posts d d₁)
    (h₂ : Shown request before (content.page before limit) d₁ d₂) :
    d₂.stores key ↔ d.stores key ∨ Wanted C request (content.below before limit) key := by
  rw [h₂.stores_iff]
  refine ⟨h.toPartStored.wanted, ?_⟩
  rintro (hk | ⟨p, hp, hw, rfl⟩)
  · exact h.kept hk
  · exact h.stores hp hw

end

/-! ## Walks in a row -/

section
variable {σ : Type} {C : Contracts} {provider : σ → (q : Question) → q.Answer → σ → Prop}
  {faulty : Prop} {same : AcquisitionRequest → Prop}

/-- one call of `execute`, alone. -/
abbrev Walks (C : Contracts) (provider : σ → (q : Question) → q.Answer → σ → Prop)
    (faulty : Prop) (request : AcquisitionRequest) (d : Db) (w : World σ)
    (r : Except AcquisitionError AcquisitionReport) (d' : Db) (w' : World σ) : Prop :=
  Runs (S := service) Eq (World.answers provider faulty) (execute C request) d w r d' w'

/-- calls of `execute`, one after the other. -/
inductive Calls (C : Contracts) (provider : σ → (q : Question) → q.Answer → σ → Prop)
    (faulty : Prop) (same : AcquisitionRequest → Prop) : Db × World σ → Db × World σ → Prop where
  | refl {c} : Calls C provider faulty same c c
  | call {c d w request r d' w'} : Calls C provider faulty same c (d, w) → same request →
      Walks C provider faulty request d w r d' w' → Calls C provider faulty same c (d', w')

/-- what is proved of a walk holds of every call. -/
theorem WalkProof.walks {request : AcquisitionRequest} {J : Db → Prop} {Start Lost : Db → σ → Prop}
    {Good : AcquisitionReport → Db → σ → Prop} {Head : Nat → Cursor → Db → σ → Prop}
    (P : WalkProof C request provider faulty J Start Head Good Lost) {d d' : Db} {w w' : World σ}
    {r : Except AcquisitionError AcquisitionReport} (hs : Supplied request faulty d w.used)
    (h : Start d w.seen) (hx : Walks C provider faulty request d w r d' w') :
    Supplied request faulty d' w'.used ∧ Ended Good Lost r d' w'.seen := by
  obtain ⟨_, rfl, hq⟩ := Safe.runs (fun _ => rfl) Eq.trans (execute_proof P hs h) hx
  exact hq

/-- and each call keeps what one call keeps. -/
theorem Calls.keeps {I : Db → World σ → Prop} {c c' : Db × World σ}
    (h : Calls C provider faulty same c c')
    (hI : ∀ {request d w r d' w'}, same request → I d w → Walks C provider faulty request d w r d' w' →
      I d' w') (h0 : I c.1 c.2) : I c'.1 c'.2 := by
  induction h with
  | refl => exact h0
  | call _ hsame hx ih => exact hI hsame ih hx

end

/-! ## Samples -/

namespace Sample

variable {σ : Type}

/-- answers at an instant; the `n`-th question draws the pairs that start at `first + n`. -/
def drawing (now : Instant) (first : Nat) (reply : (q : Question) → q.Answer) (n : Nat) :
    (q : Question) → q.Answer
  | .moment => ⟨now, fun k => Nat.pair (first + n) k, none⟩
  | q => reply q

/-- the world after such an answer. -/
def drawn (first : Nat) (see : Question → σ → σ) (n : Nat) (q : Question) (w : World σ) : World σ :=
  match q with
  | .moment => ⟨fun u => w.used u ∨ ∃ k, u = Nat.pair (first + n) k, w.seen⟩
  | q => ⟨w.used, see q w.seen⟩

/-- some steps of a program. -/
abbrev journey {ε α : Type} (now : Instant) (first : Nat) (reply : (q : Question) → q.Answer)
    (see : Question → σ → σ) (n : Nat) (p : Action ε α) (d : Db) (w : World σ) :
    Action ε α × Db × World σ :=
  Prog.travel (drawing now first reply) (drawn first see) n (p, d, w)

/-- some steps of a program whose outside answers by what it has seen. -/
abbrev roam {ε α : Type} (now : Instant) (first : Nat) (reply : σ → (q : Question) → q.Answer)
    (see : Question → σ → σ) (n : Nat) (p : Action ε α) (d : Db) (w : World σ) :
    Action ε α × Db × World σ :=
  Prog.tour (fun i q w => drawing now first (reply w.seen) i q) (drawn first see) n (p, d, w)

/-- **These steps are an execution**, and every identity that it draws is a pair from `first` on. -/
theorem roam_exec {ε α : Type} {provider : σ → (q : Question) → q.Answer → σ → Prop}
    {faulty : Prop} {reply : σ → (q : Question) → q.Answer} {see : Question → σ → σ}
    (h : ∀ q x, provider x q (reply x q) (see q x)) (now : Instant) (first n : Nat)
    (p : Action ε α) (d : Db) {w : World σ} (hw : ∀ j < n, ∀ k, ¬ w.used (Nat.pair (first + j) k)) :
    Exec (S := service) Eq (World.answers provider faulty) (p, d, w)
        (roam now first reply see n p d w) ∧
      ∀ u, (roam now first reply see n p d w).2.2.used u →
        w.used u ∨ ∃ j k, first ≤ j ∧ u = Nat.pair j k := by
  have hstep : ∀ i q (e : World σ), ((∀ j < i + 1, ∀ k, ¬ e.used (Nat.pair (first + j) k)) ∧
        ∀ u, e.used u → w.used u ∨ ∃ j k, first ≤ j ∧ u = Nat.pair j k) →
      World.answers provider faulty e q (drawing now first (reply e.seen) i q)
          (drawn first see i q e) ∧
        (∀ j < i, ∀ k, ¬ (drawn first see i q e).used (Nat.pair (first + j) k)) ∧
        ∀ u, (drawn first see i q e).used u → w.used u ∨ ∃ j k, first ≤ j ∧ u = Nat.pair j k := by
    intro i q e ⟨hfree, hused⟩
    have hfree' : ∀ j < i, ∀ k, ¬ e.used (Nat.pair (first + j) k) :=
      fun j hj => hfree j (Nat.lt_succ_of_lt hj)
    cases q with
    | moment =>
      refine ⟨⟨fun _ => ⟨rfl, fun k => hfree i (Nat.lt_succ_self i) k⟩, fun u => Iff.rfl, rfl⟩,
        fun j hj k => ?_, fun u hu => ?_⟩
      · rintro (hu | ⟨m, hm⟩)
        · exact hfree' j hj k hu
        · have := (Nat.pair_eq_pair.mp hm).1
          omega
      · rcases hu with hu | ⟨m, rfl⟩
        · exact hused u hu
        · exact .inr ⟨first + i, m, Nat.le_add_right _ _, rfl⟩
    | resolve username => exact ⟨⟨h (.resolve username) e.seen, rfl⟩, hfree', hused⟩
    | fetch channel before limit => exact ⟨⟨h (.fetch channel before limit) e.seen, rfl⟩, hfree', hused⟩
    | publish message => exact ⟨⟨h (.publish message) e.seen, rfl⟩, hfree', hused⟩
  obtain ⟨hx, i, -, hi⟩ := tour_exec (R := Eq)
    (K := fun i (w' : World σ) => (∀ j < i, ∀ k, ¬ w'.used (Nat.pair (first + j) k)) ∧
      ∀ u, w'.used u → w.used u ∨ ∃ j k, first ≤ j ∧ u = Nat.pair j k)
    (fun i e he => ⟨fun j hj => he.1 j (Nat.lt_succ_of_lt hj), he.2⟩) hstep n p d w
    ⟨hw, fun u hu => .inl hu⟩
  exact ⟨hx, hi⟩

theorem journey_exec {ε α : Type} {provider : σ → (q : Question) → q.Answer → σ → Prop}
    {faulty : Prop} {reply : (q : Question) → q.Answer} {see : Question → σ → σ}
    (h : ∀ q x, provider x q (reply q) (see q x)) (now : Instant) (first n : Nat) (p : Action ε α)
    (d : Db) {w : World σ} (hw : ∀ j < n, ∀ k, ¬ w.used (Nat.pair (first + j) k)) :
    Exec (S := service) Eq (World.answers provider faulty) (p, d, w)
        (journey now first reply see n p d w) ∧
      ∀ u, (journey now first reply see n p d w).2.2.used u →
        w.used u ∨ ∃ j k, first ≤ j ∧ u = Nat.pair j k := by
  have hroam : journey now first reply see n p d w = roam now first (fun _ => reply) see n p d w :=
    travel_eq_tour _ _ _ _
  rw [hroam]
  exact roam_exec h now first n p d hw

end Sample

end ChannelDigests
