import ChannelDigests.Building
import ChannelDigests.Currency
import ChannelDigests.Lib.Ranking
import Mathlib.Data.Set.Card

/-!
# What a selection is

The statement of `select_sources` against its purpose: of each message that shows a text in the
window the latest revision, and of these the newest.

* `Db.Shows`, `Db.messages`     the revisions with a text in the window, and their messages;
* `Db.Represents`               the latest such revision of its message;
* `Picked`                      the newest representatives, oldest first, each with its ordinal;
* `selection_exact`             **the selection is exactly that**.
-/

namespace ChannelDigests
open Lib

/-- keys and foreign keys of the posts. -/
structure Db.Posted (d : Db) : Prop where
  revisionIds : KeyUnique Revision.revisionId d.revisions
  channelIds : KeyUnique Channel.channelId d.channels
  known : ∀ r ∈ d.revisions, ∃ c ∈ d.channels, c.channelId = r.channelId

/-- the message of a revision. -/
def Revision.message (r : Revision) : Uuid × Int := (r.channelId, r.messageId)

/-- `order by observed_at, revision_id`. -/
def Revision.observed (r : Revision) : Int ×ₗ Nat := toLex (r.observedAt, r.revisionId)

/-- the order of the selection: newest first, ties broken by the identities. -/
def Revision.rank (r : Revision) : Int ×ₗ (Int ×ₗ (Int ×ₗ Int)) :=
  toLex (-r.publishedAt, toLex ((r.channelId : Int), toLex (-r.messageId, -(r.revisionId : Int))))

/-- a revision of an enabled channel, published in the window, with a text that is not
withdrawn. -/
structure Db.Shows (d : Db) (run : PendingRun) (r : Revision) : Prop where
  row : r ∈ d.revisions
  enabled : d.enabled run.ownerId r.channelId = true
  start : run.windowStart ≤ r.publishedAt
  beforeEnd : r.publishedAt < run.windowEnd
  text : r.body.isSome
  live : r.deletedAt = none

/-- the messages of the window. -/
def Db.messages (d : Db) (run : PendingRun) : Set (Uuid × Int) :=
  {x | ∃ r, d.Shows run r ∧ r.message = x}

/-- the latest revision of its message. -/
structure Db.Represents (d : Db) (run : PendingRun) (r : Revision) : Prop where
  shows : d.Shows run r
  latest : ∀ o, d.Shows run o → o.message = r.message → o.observed ≤ r.observed

/-- all revisions of a message in the window, in the order of observation: also those that are
minimized or withdrawn. -/
def Db.numbered (d : Db) (run : PendingRun) (r : Revision) : List Revision :=
  sorted Revision.observed ((d.windowRevisions run).filter r.sameMessage)

/-- the newest representatives, oldest first, each with its ordinal. -/
structure Picked (d : Db) (run : PendingRun) (k : Nat) (sources : List ManifestSource)
    (chosen : List Revision) : Prop where
  represents : ∀ r ∈ chosen, d.Represents run r
  length : chosen.length = min k (d.messages run).ncard
  newest : ∀ r ∈ chosen, ∀ o, d.Represents run o → o ∉ chosen →
    o.publishedAt ≤ r.publishedAt ∧ r.rank < o.rank
  ascending : chosen.Pairwise fun a b => a.publishedAt ≤ b.publishedAt ∧ b.rank < a.rank
  sources_eq : sources = chosen.map (d.manifestSource run)
  ordinal : ∀ r ∈ chosen, 1 ≤ d.revisionIndex run r ∧
    (d.numbered run r)[d.revisionIndex run r - 1]? = some r

section
variable {d : Db} {run : PendingRun} {k : Nat} {r : Revision}

/-- a row with a higher rank was not published later. -/
theorem publishedAt_le_of_rank {a b : Revision} (h : a.rank ≤ b.rank) :
    b.publishedAt ≤ a.publishedAt := by
  have hfst : -a.publishedAt ≤ -b.publishedAt := Prod.Lex.monotone_fst _ _ h
  exact Int.neg_le_neg_iff.mp hfst

theorem sameMessage_iff {a b : Revision} : a.sameMessage b = true ↔ b.message = a.message := by
  unfold Revision.sameMessage Revision.message
  rw [Bool.and_eq_true, decide_eq_true_eq, decide_eq_true_eq, Prod.mk.injEq, eq_comm,
    eq_comm (a := a.messageId)]

/-- the rows that the statement picks from are the representatives. -/
theorem mem_latest (hd : d.Posted) : r ∈ d.latestRevisions run ↔ d.Represents run r := by
  have shows_iff : ∀ o, (o ∈ d.windowRevisions run ∧ o.eligible = true) ↔ d.Shows run o := by
    intro o
    rw [mem_windowRevisions]
    unfold Revision.eligible
    rw [Bool.and_eq_true, Option.isNone_iff_eq_none]
    exact ⟨fun ⟨⟨h1, h2, h3, h4⟩, h5, h6⟩ => ⟨h1, h2, h3, h4, h5, h6⟩,
      fun h => ⟨⟨h.row, h.enabled, h.start, h.beforeEnd⟩, h.text, h.live⟩⟩
  rw [mem_latestRevisions]
  constructor
  · intro ⟨⟨hw, he, _⟩, hlast⟩
    refine ⟨(shows_iff r).mp ⟨hw, he⟩, fun o ho hm => ?_⟩
    obtain ⟨how, hoe⟩ := (shows_iff o).mpr ho
    have hnot := hlast o how hoe (hd.known o ho.row) (sameMessage_iff.mpr hm)
    exact not_lt.mp (of_decide_eq_false hnot)
  · intro h
    obtain ⟨hw, he⟩ := (shows_iff r).mpr h.shows
    refine ⟨⟨hw, he, hd.known r h.shows.row⟩, fun o how hoe _ hm => ?_⟩
    exact decide_eq_false (not_lt.mpr (h.latest o ((shows_iff o).mp ⟨how, hoe⟩)
      (sameMessage_iff.mp hm)))

/-- each message has one representative. -/
theorem represented (hd : d.Posted) {x : Uuid × Int} (hx : x ∈ d.messages run) :
    ∃! r, d.Represents run r ∧ r.message = x := by
  obtain ⟨o, ho, rfl⟩ := hx
  have hcand : ∀ q, d.Candidate run o.channelId o.messageId q ↔
      d.Shows run q ∧ q.message = o.message := by
    intro q
    constructor
    · intro hq
      have helig := hq.eligible
      unfold Revision.eligible at helig
      rw [Bool.and_eq_true, Option.isNone_iff_eq_none] at helig
      refine ⟨⟨hq.row, hq.channelId ▸ ho.enabled, hq.start, hq.until_, helig.1, helig.2⟩, ?_⟩
      exact Prod.ext hq.channelId hq.messageId
    · intro ⟨hq, hm⟩
      obtain ⟨hc, hm⟩ := Prod.mk.inj hm
      refine ⟨hq.row, hc, hm, ?_, hq.start, hq.beforeEnd⟩
      unfold Revision.eligible
      rw [Bool.and_eq_true, Option.isNone_iff_eq_none]
      exact ⟨hq.text, hq.live⟩
  obtain ⟨m, hm, -, hlast⟩ := ((hcand o).mpr ⟨ho, rfl⟩).latest
  obtain ⟨hshows, hmessage⟩ := (hcand m).mp hm
  have hrep : d.Represents run m := ⟨hshows, fun q hq hqm =>
    not_lt.mp (of_decide_eq_false (hlast q ((hcand q).mpr ⟨hq, hqm.trans hmessage⟩)))⟩
  refine ⟨m, ⟨hrep, hmessage⟩, fun q ⟨hq, hqm⟩ => ?_⟩
  have hsame := le_antisymm (hrep.latest q hq.shows (hqm.trans hmessage.symm))
    (hq.latest m hrep.shows (hmessage.trans hqm.symm))
  exact hd.revisionIds.eq hq.shows.row hrep.shows.row (congrArg (fun x => (ofLex x).2) hsame)

/-- as many rows as messages. -/
theorem latest_length (hd : d.Posted) :
    (d.latestRevisions run).length = (d.messages run).ncard := by
  have hset : d.messages run = ((d.latestRevisions run).map Revision.message).toFinset := by
    refine Set.ext fun x => ?_
    rw [Finset.mem_coe, List.mem_toFinset, List.mem_map]
    constructor
    · intro hx
      obtain ⟨r, ⟨hr, hm⟩, -⟩ := represented hd hx
      exact ⟨r, (mem_latest hd).mpr hr, hm⟩
    · intro ⟨r, hr, hm⟩
      exact ⟨r, ((mem_latest hd).mp hr).shows, hm⟩
  have hnodup : ((d.latestRevisions run).map Revision.message).Nodup :=
    latestRevisions_messages hd.revisionIds
  rw [hset, Set.ncard_coe_finset, List.toFinset_card_of_nodup hnodup, List.length_map]

/-! ## The selection -/

theorem latest_ranks (hd : d.Posted) : KeyUnique Revision.rank (d.latestRevisions run) := by
  have hu : KeyUnique (fun r : Revision => (r.channelId, r.messageId)) (d.latestRevisions run) :=
    latestRevisions_messages hd.revisionIds
  refine KeyUnique.of_key hu fun a b h => ?_
  obtain ⟨-, h⟩ := Prod.mk.inj h
  obtain ⟨hc, h⟩ := Prod.mk.inj h
  obtain ⟨hm, -⟩ := Prod.mk.inj h
  exact Prod.ext (Int.ofNat_inj.mp hc) (Int.neg_inj.mp hm)

/-- a representative's ordinal is its place among all revisions of its message. -/
theorem revisionIndex_ordinal (hd : d.Posted) (hr : d.Represents run r) :
    1 ≤ d.revisionIndex run r ∧ (d.numbered run r)[d.revisionIndex run r - 1]? = some r := by
  have hw : r ∈ (d.windowRevisions run).filter r.sameMessage := by
    refine List.mem_filter.mpr ⟨mem_windowRevisions.mpr ?_, sameMessage_iff.mpr rfl⟩
    exact ⟨hr.shows.row, hr.shows.enabled, hr.shows.start, hr.shows.beforeEnd⟩
  have hu : KeyUnique Revision.observed ((d.windowRevisions run).filter r.sameMessage) := by
    refine KeyUnique.filter (KeyUnique.filter (hd.revisionIds.of_key fun a b h => ?_) _) _
    exact (Prod.mk.inj h).2
  have hindex : d.revisionIndex run r = 1 +
      ((d.windowRevisions run).filter r.sameMessage).countP fun o => o.observed < r.observed := by
    unfold Db.revisionIndex
    rw [List.countP_filter]
    congr 2
    funext o
    exact Bool.and_comm _ _
  rw [hindex, Nat.add_sub_cancel_left]
  exact ⟨Nat.le_add_right 1 _, sorted_rank hu hw⟩

/-- what the newest representatives are, in the order of the statement. -/
theorem picked_iff (hd : d.Posted) {sources : List ManifestSource} {chosen : List Revision}
    (hs : sources = chosen.map (d.manifestSource run)) :
    Picked d run k sources chosen ↔
      FirstOf Revision.rank k (d.latestRevisions run) chosen.reverse := by
  constructor
  · intro h
    refine ⟨fun r hr => ?_, List.pairwise_reverse.mpr (h.ascending.imp And.right), ?_,
      fun r hr o ho hno => ?_⟩
    · exact (mem_latest hd).mpr (h.represents r (List.mem_reverse.mp hr))
    · rw [List.length_reverse, h.length, latest_length hd]
    · exact (h.newest r (List.mem_reverse.mp hr) o ((mem_latest hd).mp ho)
        fun hmem => hno (List.mem_reverse.mpr hmem)).2
  · intro h
    have hrep : ∀ r ∈ chosen, d.Represents run r := fun r hr =>
      (mem_latest hd).mp (h.subset r (List.mem_reverse.mpr hr))
    refine ⟨hrep, ?_, fun r hr o ho hno => ?_, ?_, hs, fun r hr => revisionIndex_ordinal hd (hrep r hr)⟩
    · rw [← latest_length hd, ← h.length, List.length_reverse]
    · have hlt := h.first r (List.mem_reverse.mpr hr) o ((mem_latest hd).mpr ho)
        fun hmem => hno (List.mem_reverse.mp hmem)
      exact ⟨publishedAt_le_of_rank hlt.le, hlt⟩
    · exact (List.pairwise_reverse.mp h.rising).imp fun hlt => ⟨publishedAt_le_of_rank hlt.le, hlt⟩

/-- **The selection is exactly the newest messages of the window**: of each message that shows a
text the latest revision, of these the `k` newest, oldest first, each with its ordinal among all
revisions of its message in the window; and the messages before the cap are counted, so that a
truncation is known. -/
theorem selection_exact (hd : d.Posted) (_ : 1 ≤ k) (_ : k ≤ maxSources) (run : PendingRun) :
    (∀ x ∈ d.messages run, ∃! r, d.Represents run r ∧ r.message = x) ∧
    (∃! chosen, Picked d run k (d.selectSources run k).sources chosen) ∧
    (d.selectSources run k).eligible = (d.messages run).ncard ∧
    ((d.selectSources run k).sources.length < (d.selectSources run k).eligible ↔
      k < (d.messages run).ncard) := by
  have hsources : (d.selectSources run k).sources =
      ((sorted Revision.rank (d.latestRevisions run)).take k).reverse.map (d.manifestSource run) := by
    rw [List.map_reverse]
    rfl
  have hranks : KeyUnique Revision.rank (d.latestRevisions run) := latest_ranks hd
  have hfirst := firstOf_take hranks k
  have hpicked : Picked d run k (d.selectSources run k).sources
      ((sorted Revision.rank (d.latestRevisions run)).take k).reverse := by
    refine (picked_iff hd hsources).mpr ?_
    rw [List.reverse_reverse]
    exact hfirst
  refine ⟨fun x hx => represented hd hx, ⟨_, hpicked, fun other ho => ?_⟩, latest_length hd, ?_⟩
  · have hother := (picked_iff hd ho.sources_eq).mp ho
    rw [hfirst.unique hother, List.reverse_reverse]
  · have heligible : (d.selectSources run k).eligible = (d.messages run).ncard := latest_length hd
    rw [heligible, hpicked.sources_eq, List.length_map, hpicked.length, min_lt_iff]
    exact or_iff_left (lt_irrefl _)

end

namespace Sample

/-- a post of the channel 11 as it was observed. -/
def observed (revisionId : Uuid) (messageId publishedAt observedAt : Int) (body : Option String) :
    Revision :=
  ⟨revisionId, 11, messageId, revisionId, body, publishedAt, observedAt, "", none, none⟩

/-- two messages, the first of them edited after its first text was dropped. -/
def editedPosts : Db :=
  { Db.empty with
    channels := [⟨11, "rust_news", none⟩]
    subscriptions := [⟨1, 7, 11, 0, true⟩]
    revisions := [observed 21 5 100 10 none, observed 22 5 100 20 (some "edited"),
      observed 23 4 90 10 (some "old")] }

def editedRun : PendingRun := ⟨31, 7, 0, 1000, .ru, .acquiring, 41⟩

theorem editedPosts_selection : editedPosts.Posted ∧
    ∃! chosen, Picked editedPosts editedRun 1 (editedPosts.selectSources editedRun 1).sources
      chosen := by
  have hd : editedPosts.Posted :=
    ⟨by unfold KeyUnique; decide, by unfold KeyUnique; decide, by decide⟩
  exact ⟨hd, (selection_exact hd (by decide) (by decide) editedRun).2.1⟩

example : ((editedPosts.selectSources editedRun 1).sources.map fun s =>
    (s.revisionId, s.revisionIndex)) = [(22, 2)] := by decide +kernel

end Sample

end ChannelDigests
