import ChannelDigests.Thorough

/-!
# Withdrawal by absence

The channel may be another one at every request of a walk, as posts are added, edited and removed.
The pages that were served are the history; what a walk has withdrawn is a matter of that history
alone: the id ranges that its pages prove tile without a gap.

* `Served`              one page of an honest provider, with the channel at that moment;
* `Served.Proves`       the page proves the message absent;
* `Spared`, `Withdrawn` the walk left the rows of a message alone, or all of them are withdrawn;
* `Swept`               the invariant of a walk that has seen a history;
* `withdrawal_by_absence`  **what was always there is spared, what was never there is withdrawn as
                        far as the pages reach, and nothing below that is touched**.
-/

namespace ChannelDigests
open Lib Prog

/-- the message is in the channel. -/
def ChannelContent.Holds (content : ChannelContent) (id : Int) : Prop :=
  ∃ p ∈ content.posts, p.messageId = id

/-- one page that was served: the channel at that moment, the cursor and the limit. -/
structure Served where
  content : ChannelContent
  before : Option Int
  limit : Nat

namespace Served

/-- the page. -/
def page (s : Served) : ProviderPage := s.content.page s.before s.limit

/-- the pages read reach down to the message with this page. -/
def Reaches (s : Served) (id : Int) : Prop := ∀ c, s.page.nextBeforeMessageId = some c → c ≤ id

/-- the page proves that the message is absent. -/
def Proves (s : Served) (id : Int) : Prop :=
  s.Reaches id ∧ (∀ b, s.before = some b → id < b) ∧ ¬ s.content.Holds id

end Served

/-- the provider serves the channel of the moment, or fails. -/
def serving : List Served → (q : Question) → q.Answer → List Served → Prop
  | history, .fetch _ before limit, reply, history' =>
    (∀ page, reply = .ok page → ∃ content : ChannelContent, page = content.page before limit ∧
      history' = ⟨content, before, limit⟩ :: history) ∧
    ((∀ page, reply ≠ .ok page) → history' = history)
  | history, _, _, history' => history' = history

section
variable (channelId : Uuid)

/-- the withdrawn rows of the message were withdrawn before. -/
def Spared (d₀ d : Db) (id : Int) : Prop :=
  ∀ r ∈ d.revisions, r.channelId = channelId → r.messageId = id → r.deletedAt.isSome →
    r ∈ d₀.revisions

/-- every row of the message is withdrawn. -/
def Withdrawn (d : Db) (id : Int) : Prop :=
  ∀ r ∈ d.revisions, r.channelId = channelId → r.messageId = id → r.deletedAt.isSome

/-- from the cursor on, what was never there is withdrawn. -/
def SweptFrom (history : List Served) (before : Option Int) (d : Db) : Prop :=
  ∀ b, before = some b → ∀ id, b ≤ id → (∀ s ∈ history, ¬ s.content.Holds id) →
    Withdrawn channelId d id

/-- what a walk from `d₀` has withdrawn. -/
structure Swept (d₀ d : Db) (history : List Served) : Prop where
  spared : ∀ id, (∀ s ∈ history, s.content.Holds id ∨ ¬ s.Reaches id) → Spared channelId d₀ d id
  withdrawn : ∀ id, (∃ s ∈ history, s.Reaches id) → (∀ s ∈ history, ¬ s.content.Holds id) →
    Withdrawn channelId d id

end

/-- what a call leaves for the next one. -/
structure Sweeping (walk : AcquisitionRequest) (d₀ d : Db) (history : List Served) : Prop
    extends Swept walk.channelId d₀ d history where
  lease : ∀ l, d.lease walk.channelId walk.runId = some l →
    SweptFrom walk.channelId history l.checkpoint.beforeMessageId d

section
variable {C : Contracts} {content : ChannelContent} {walk request : AcquisitionRequest}
  {channelId : Uuid} {before : Option Int} {limit : Nat} {d₀ d d₁ d₂ : Db} {s : Served}
  {history : List Served} {id : Int}

/-! ## One page -/

theorem ChannelContent.mem_present :
    id ∈ (content.page before limit).present ↔ ∃ p ∈ content.below before limit, p.messageId = id := by
  simp [ProviderPage.present, ChannelContent.page, ChannelPost.shown, List.mem_filter]

theorem ChannelContent.deleted_page : (content.page before limit).deleted = [] := by
  simp [ProviderPage.deleted, ChannelContent.page, ChannelPost.shown, List.filter_eq_nil_iff]

/-- an honest page proves the ids between its two cursors. -/
theorem Served.provedRange (s : Served) :
    provedRange s.page s.before = some ⟨s.page.nextBeforeMessageId, s.before⟩ := by
  unfold ChannelDigests.provedRange
  cases hc : s.page.nextBeforeMessageId with
  | none => rfl
  | some c =>
    have hmin : (s.page.posts.map (·.messageId)).min? = some c := by
      rw [show s.page.posts.map (·.messageId) =
        (s.content.below s.before s.limit).map ChannelPost.messageId from by
          simp [Served.page, ChannelContent.page, ChannelPost.shown]]
      exact cursorAfter_min s.content.falling.pageOf hc
    rw [hmin]

/-- what a page takes for gone is what it proves absent. -/
theorem Served.gone_iff (hn : 0 < s.limit) :
    gone ⟨s.page.nextBeforeMessageId, s.before⟩ s.page.present s.page.deleted id = true ↔
      s.Proves id := by
  have hcovers : (⟨s.page.nextBeforeMessageId, s.before⟩ : ProvedIdRange).covers id = true ↔
      s.Reaches id ∧ ∀ b, s.before = some b → id < b := by
    simp only [ProvedIdRange.covers, Bool.and_eq_true, Option.all_eq_true, decide_eq_true_eq]
    exact Iff.rfl
  rw [gone, show s.page.deleted = [] from ChannelContent.deleted_page]
  simp only [List.contains_nil, Bool.or_false, Bool.and_eq_true, hcovers, Bool.not_eq_true',
    ← Bool.not_eq_true, List.contains_iff_mem]
  rw [Served.Proves, and_assoc]
  refine and_congr_right fun hr => and_congr_right fun hb => not_congr ?_
  rw [Served.page, ChannelContent.mem_present]
  constructor
  · rintro ⟨p, hp, rfl⟩
    exact ⟨p, (ChannelContent.mem_below hp).1, rfl⟩
  · rintro ⟨p, hp, rfl⟩
    exact ⟨p, ChannelContent.page_holds hn hp hb hr, rfl⟩

/-- the rows after a page is stored: the rows before, and rows of messages of the page. -/
theorem PartStored.rows_of (h : PartStored C request s.page.posts d d₁) {r : Revision}
    (hr : r ∈ d₁.revisions) :
    r ∈ d.revisions ∨ r.deletedAt = none ∧ s.content.Holds r.messageId := by
  obtain ⟨new, hnew, hrows⟩ := h.rows
  rw [hnew] at hr
  refine (List.mem_append.mp hr).imp_right fun hr => ?_
  obtain ⟨post, hpost, published, revisionId, -, rfl, -⟩ := hrows r hr
  obtain ⟨p, hp, rfl⟩ := List.mem_map.mp hpost
  exact ⟨rfl, p, (ChannelContent.mem_below hp).1, rfl⟩

/-- the rows after an honest page: as before, or withdrawn because the page proves it. -/
theorem Shown.rows_of (hn : 0 < s.limit) (h : Shown request s.before s.page d₁ d₂) {r' : Revision}
    (hr' : r' ∈ d₂.revisions) : ∃ r ∈ d₁.revisions, r'.channelId = r.channelId ∧
      r'.messageId = r.messageId ∧ ((r' = r ∧ (r.channelId = request.channelId →
        s.Proves r.messageId → r.deletedAt.isSome)) ∨
      r.channelId = request.channelId ∧ s.Proves r.messageId ∧ r.deletedAt = none ∧
        r'.deletedAt.isSome) := by
  unfold Shown at h
  rw [s.provedRange] at h
  obtain ⟨now, rfl⟩ := h
  obtain ⟨r, hr, h⟩ := mem_updateWhere.mp hr'
  refine ⟨r, hr, ?_⟩
  simp only [Bool.and_eq_true, decide_eq_true_eq, Option.isNone_iff_eq_none,
    Served.gone_iff hn] at h
  rcases h with ⟨⟨⟨hch, hdel⟩, hproves⟩, rfl⟩ | ⟨hnot, rfl⟩
  · exact ⟨rfl, rfl, .inr ⟨hch, hproves, hdel, rfl⟩⟩
  · refine ⟨rfl, rfl, .inl ⟨rfl, fun hch hproves => ?_⟩⟩
    rw [← Served.gone_iff hn] at hproves
    rw [hproves, Bool.and_true, decide_eq_true hch, Bool.true_and] at hnot
    rwa [Option.isSome_iff_ne_none, ne_eq, ← Option.isNone_iff_eq_none, Bool.not_eq_true]

/-- a page does not touch what it does not prove absent. -/
theorem Spared.page (hn : 0 < s.limit)
    (h : Spared channelId d₀ d id) (hd₁ : PartStored C request s.page.posts d d₁)
    (hd₂ : Shown request s.before s.page d₁ d₂) (hid : ¬ s.Proves id) :
    Spared channelId d₀ d₂ id := by
  intro r' hr' hc hm hdel
  obtain ⟨r, hr, hc', hm', ⟨rfl, -⟩ | ⟨-, hproves, -⟩⟩ := hd₂.rows_of hn hr'
  · rcases hd₁.rows_of hr with hr | ⟨hnone, -⟩
    · exact h r' hr hc hm hdel
    · rw [hnone] at hdel
      cases hdel
  · rw [← hm', hm] at hproves
    exact absurd hproves hid

/-- withdrawn rows of an absent message stay withdrawn. -/
theorem Withdrawn.page (hn : 0 < s.limit) (h : Withdrawn channelId d id)
    (hd₁ : PartStored C request s.page.posts d d₁) (hd₂ : Shown request s.before s.page d₁ d₂)
    (hid : ¬ s.content.Holds id) : Withdrawn channelId d₂ id := by
  intro r' hr' hc hm
  obtain ⟨r, hr, hc', hm', ⟨rfl, -⟩ | ⟨-, -, -, hdel⟩⟩ := hd₂.rows_of hn hr'
  · rcases hd₁.rows_of hr with hr | ⟨-, hholds⟩
    · exact h r' hr hc hm
    · exact absurd (hm ▸ hholds) hid
  · exact hdel

/-- what a page proves absent is withdrawn. -/
theorem Withdrawn.proved (hn : 0 < s.limit) (hch : request.channelId = channelId)
    (hd₂ : Shown request s.before s.page d₁ d₂) (hid : s.Proves id) : Withdrawn channelId d₂ id := by
  intro r' hr' hc hm
  obtain ⟨r, hr, hc', hm', ⟨rfl, hproved⟩ | ⟨-, -, -, hdel⟩⟩ := hd₂.rows_of hn hr'
  · exact hproved (hc.trans hch.symm) (hm.symm ▸ hid)
  · exact hdel

/-- **What one page adds to the history.** -/
theorem Swept.page (hn : 0 < s.limit) (hch : request.channelId = channelId)
    (h : Swept channelId d₀ d history) (hfrom : SweptFrom channelId history s.before d)
    (hd₁ : PartStored C request s.page.posts d d₁) (hd₂ : Shown request s.before s.page d₁ d₂) :
    Swept channelId d₀ d₂ (s :: history) where
  spared id hid := by
    refine (h.spared id fun t ht => hid t (List.mem_cons_of_mem s ht)).page hn hd₁ hd₂ ?_
    rintro ⟨hreaches, -, habsent⟩
    exact (hid s List.mem_cons_self).elim habsent fun hnot => hnot hreaches
  withdrawn id hreaches habsent := by
    have hs := habsent s List.mem_cons_self
    have hhistory : ∀ t ∈ history, ¬ t.content.Holds id :=
      fun t ht => habsent t (List.mem_cons_of_mem s ht)
    obtain ⟨t, ht, hreaches⟩ := hreaches
    rcases List.mem_cons.mp ht with rfl | ht
    · -- the message lies between the cursors of the page, or above it.
      by_cases hb : ∀ b, t.before = some b → id < b
      · exact .proved hn hch hd₂ ⟨hreaches, hb, hs⟩
      · push Not at hb
        obtain ⟨b, hbefore, hle⟩ := hb
        exact (hfrom b hbefore id hle hhistory).page hn hd₁ hd₂ hs
    · exact (h.withdrawn id ⟨t, ht, hreaches⟩ hhistory).page hn hd₁ hd₂ hs

/-- a page that a walk has served is swept from its next cursor on. -/
theorem Swept.from {c : Option Int} (h : Swept channelId d₀ d (s :: history))
    (hc : ∀ b, c = some b → s.page.nextBeforeMessageId = some b) :
    SweptFrom channelId (s :: history) c d := by
  intro b hb id hle habsent
  refine h.withdrawn id ⟨s, List.mem_cons_self, fun c' hc' => ?_⟩ habsent
  rw [hc b hb] at hc'
  cases hc'
  exact hle

/-! ## Walks -/

theorem Sweeping.put {at_ : Cursor} {state : CheckpointState} {wait : Option Nat} {holder : Uuid}
    {now : Instant} (hc : walk.Continues request) (h : Swept walk.channelId d₀ d history)
    (hfrom : SweptFrom walk.channelId history at_.before d) :
    Sweeping walk d₀ (d.putLease (checkpointLease request at_ state wait holder now)) history where
  spared := h.spared
  withdrawn := h.withdrawn
  lease l hl := by
    have hrow := d.lease_putLease (checkpointLease request at_ state wait holder now)
    rw [show (checkpointLease request at_ state wait holder now).channelId = walk.channelId from
      hc.channelId, show (checkpointLease request at_ state wait holder now).runId = walk.runId from
      hc.runId, hl] at hrow
    rw [Option.some.inj hrow]
    exact hfrom

theorem serving_fails {n : Nat} {at_ : Cursor} {history' : List Served}
    (h : Fails serving request n at_ history history') : history' = history := by
  rcases h with ⟨reply, -, h⟩ | ⟨-, channel, reply, hne, -, h⟩
  · exact h
  · exact h hne

/-- the obligations of a walk. -/
theorem sweepingProof (hc : walk.Continues request) (d₀ : Db) :
    WalkProof C request serving False (fun _ => True) (fun d x => Sweeping walk d₀ d x)
      (fun _ at_ d x => Sweeping walk d₀ d x ∧ SweptFrom walk.channelId x at_.before d)
      (fun _ d x => Sweeping walk d₀ d x) (fun d x => Sweeping walk d₀ d x) where
  started _ := trivial
  refused h _ := h
  resumed := by
    rintro d x now at_ h hat
    refine ⟨h, ?_⟩
    unfold resumeFrom at hat
    rw [hc.channelId, hc.runId] at hat
    split at hat
    · cases hat
      rintro b ⟨⟩
    · next l hl =>
      dsimp only at hat
      split_ifs at hat with hwait hdone
      · cases hat
        rintro b ⟨⟩
      · cases hat
        exact h.lease l hl
  safe _ := trivial
  lost h _ := h.1
  resolved := by
    rintro n at_ d x channel _ h rfl
    exact h
  missed := by
    rintro n at_ d x x' h hfails
    obtain rfl := serving_fails hfails
    exact h.1
  waits := by
    rintro n at_ d x x' wait holder now h hfails
    obtain rfl := serving_fails hfails
    exact ⟨trivial, .put hc h.1.toSwept h.2⟩
  down := by
    rintro n at_ d x x' holder now h hfails -
    obtain rfl := serving_fails hfails
    exact ⟨trivial, .put hc h.1.toSwept h.2⟩
  part := by
    rintro n at_ d x channel page x' d₁ - ⟨hpage, -⟩ -
    obtain ⟨content, rfl, -⟩ := hpage page rfl
    refine ⟨trivial, ?_⟩
    rintro (hf | ⟨post, hpost, -, hnone⟩)
    · exact hf.elim
    · exact absurd hnone (ChannelContent.page_readable hpost)
  shown _ _ _ _ := ⟨trivial, False.elim⟩
  next := by
    rintro n at_ d x channel page x' d₁ d₂ reached count holder now h ⟨hpage, -⟩ hd₁ hd₂ -
    obtain ⟨content, rfl, rfl⟩ := hpage page rfl
    have hn : 0 < min request.pageSize 100 := by
      have := hc.pageSize
      omega
    have hswept := h.1.toSwept.page (s := ⟨content, at_.before, _⟩) hn hc.channelId h.2
      hd₁.toPartStored hd₂
    have hfrom := hswept.from (c := (at_.after (content.page at_.before (min request.pageSize 100))
      reached count).before) fun b hb => by
        unfold Cursor.after at hb
        dsimp only at hb
        split_ifs at hb
        exact hb
    exact ⟨.put hc hswept hfrom, hfrom⟩
  finish _ _ h := ⟨trivial, .put hc h.1.toSwept h.2⟩

/-- **Withdrawal by absence is sound and complete over whole walks**: a message that was in the
channel at every page is spared, one that was in none is withdrawn as far as the pages reach, and
no message below that is withdrawn. -/
theorem withdrawal_by_absence (C : Contracts) (walk : AcquisitionRequest) {d d' : Db}
    {w w' : World (List Served)} (hfirst : d.lease walk.channelId walk.runId = none)
    (hserved : w.seen = []) (hs : Supplied walk False d w.used)
    (h : Calls C serving False walk.Continues (d, w) (d', w')) :
    (∀ id, (∀ s ∈ w'.seen, s.content.Holds id) → Spared walk.channelId d d' id) ∧
    (∀ id, (∃ s ∈ w'.seen, s.Reaches id) → (∀ s ∈ w'.seen, ¬ s.content.Holds id) →
      Withdrawn walk.channelId d' id) ∧
    ∀ id, (∀ s ∈ w'.seen, ¬ s.Reaches id) → Spared walk.channelId d d' id := by
  have hinv : Supplied walk False d' w'.used ∧ Sweeping walk d d' w'.seen := by
    refine h.keeps (I := fun d' w' => Supplied walk False d' w'.used ∧ Sweeping walk d d' w'.seen)
      (fun {request d₁ w₁ r d₂ w₂} hc hd hx => ?_) ⟨hs, ⟨fun _ _ r hr _ _ _ => hr, ?_⟩, ?_⟩
    · have hsup : ∀ d (w : World (List Served)),
          Supplied request False d w.used ↔ Supplied walk False d w.used := fun d w => by
        unfold Supplied
        rw [hc.channelId]
      obtain ⟨hsup', hend⟩ := (sweepingProof hc d).walks ((hsup _ _).mpr hd.1) hd.2 hx
      refine ⟨(hsup _ _).mp hsup', ?_⟩
      cases r with
      | ok report => exact hend
      | error x => exact hend
    · rintro id ⟨s, hmem, -⟩
      rw [show w.seen = [] from hserved] at hmem
      cases hmem
    · intro l hl
      rw [show (d, w).1 = d from rfl, hfirst] at hl
      cases hl
  exact ⟨fun id hid => hinv.2.spared id fun s hmem => .inl (hid s hmem), hinv.2.withdrawn,
    fun id hid => hinv.2.spared id fun s hmem => .inr (hid s hmem)⟩

end

/-! ## A sample -/

namespace Sample

/-- the channel later: a post is added and one is edited. -/
def edited : ChannelContent :=
  ⟨[⟨8, "new", 2000000⟩, ⟨5, "hello again", 1000000⟩], by simp [Falling]⟩

def storedRow (k : Nat) (messageId : Int) : Revision :=
  ⟨Nat.pair 200 k, 1, messageId, textDigest "hello", some "hello", 1000000, 1000000000, "", none, none⟩

/-- a text of a message that is gone, and one of a message that is not. -/
def knownTexts : Db := { known with revisions := [storedRow 0 3, storedRow 1 5] }

/-- the pages that the provider serves. -/
def serve (content : ChannelContent) (waits : Bool) : Question → List Served → List Served
  | .fetch _ before limit, history =>
    if waits && before.isSome then history else ⟨content, before, limit⟩ :: history
  | _, history => history

theorem shows_served (content : ChannelContent) (waits : Bool) (q : Question)
    (history : List Served) :
    serving history q (shows content waits q) (serve content waits q history) := by
  cases q with
  | fetch channel before limit =>
    dsimp only [shows, serve]
    split_ifs
    · exact ⟨nofun, fun _ => rfl⟩
    · refine ⟨fun page hp => ⟨content, ?_, rfl⟩, fun hne => absurd rfl (hne _)⟩
      cases hp
      rfl
  | _ => exact rfl

/-- the walk is deferred at its second page, -/
def firstCall : Action AcquisitionError AcquisitionReport × Db × World (List Served) :=
  journey 1000 100 (shows upstream true) (serve upstream true) 40 (execute contracts walk)
    knownTexts ⟨fun u => ∃ k, u = Nat.pair 200 k, []⟩

/-- and goes on when the channel has changed. -/
def secondCall : Action AcquisitionError AcquisitionReport × Db × World (List Served) :=
  journey 9000000 0 (shows edited false) (serve edited false) 40 (execute contracts walk)
    firstCall.2.1 firstCall.2.2

end Sample

theorem secondCall_sweeps : (Sample.firstCall.1.answer? = some (.error .deferred) ∧
      Sample.secondCall.1.answer? = some (.ok ⟨2, 1, false⟩) ∧
      Sample.secondCall.2.1.revisions.map (fun r => (r.messageId, r.deletedAt.isSome)) =
        [(3, true), (5, false)]) ∧
    (∀ id, (∀ s ∈ Sample.secondCall.2.2.seen, s.content.Holds id) →
      Spared 1 Sample.knownTexts Sample.secondCall.2.1 id) ∧
    (∀ id, (∃ s ∈ Sample.secondCall.2.2.seen, s.Reaches id) →
      (∀ s ∈ Sample.secondCall.2.2.seen, ¬ s.content.Holds id) →
      Withdrawn 1 Sample.secondCall.2.1 id) ∧
    ∀ id, (∀ s ∈ Sample.secondCall.2.2.seen, ¬ s.Reaches id) →
      Spared 1 Sample.knownTexts Sample.secondCall.2.1 id := by
  have h1 : Sample.firstCall.1.answer? = some (.error .deferred) := by decide +kernel
  have h2 : Sample.secondCall.1.answer? = some (.ok ⟨2, 1, false⟩) := by decide +kernel
  obtain ⟨hx₁, hused⟩ := Sample.journey_exec (Sample.shows_served Sample.upstream true) 1000 100 40
    (execute Sample.contracts Sample.walk) Sample.knownTexts
    (w := ⟨fun u => ∃ k, u = Nat.pair 200 k, []⟩) fun j hj k ⟨m, hm⟩ => by
      have := (Nat.pair_eq_pair.mp hm).1
      omega
  obtain ⟨hx₂, -⟩ := Sample.journey_exec (Sample.shows_served Sample.edited false) 9000000 0 40
    (execute Sample.contracts Sample.walk) Sample.firstCall.2.1
    (Sample.unused_below (by decide) fun u hu => .inr ((hused u hu).elim
      (fun ⟨k, hk⟩ => ⟨200, k, by decide, hk⟩) id))
  have hc : Sample.walk.Continues Sample.walk := ⟨rfl, rfl, rfl, rfl, by decide, by decide⟩
  refine ⟨⟨h1, h2, by decide +kernel⟩, withdrawal_by_absence Sample.contracts Sample.walk rfl
    rfl (fun _ => ⟨fun r hr => ?_, _, List.mem_singleton.mpr rfl, rfl⟩)
    (.call (.call .refl hc (travel_runs hx₁ h1)) hc (travel_runs hx₂ h2))⟩
  rcases List.mem_cons.mp hr with rfl | hr
  · exact ⟨0, rfl⟩
  · rw [List.mem_singleton.mp hr]
    exact ⟨1, rfl⟩

end ChannelDigests
