import ChannelDigests.Upstream
import ChannelDigests.Documents
import Mathlib.Data.Nat.Pairing

/-!
# A walk that is not partial has read the window

A channel that stays as it is, whose posts do not get older upwards, is read by walks of one run
that may be deferred, may fail and are called again.  The invariant connects the cursor with the
posts that are stored: every wanted post from the cursor on.

* `counting`       the channel upstream; requests for pages are counted;
* `Covers`         every wanted post from a cursor on is stored;
* `LeaseSound`     what the lease says was read is stored;
* `thorough_walks`  **a report that is not partial means that the whole window is stored**, and no
                    call asks for more pages than its limit.
-/

namespace ChannelDigests
open Lib Prog

/-- publication times do not decrease with the id. -/
def ChannelContent.Aging (content : ChannelContent) : Prop :=
  ∀ p ∈ content.posts, ∀ q ∈ content.posts, p.messageId < q.messageId → p.publishedAt ≤ q.publishedAt

/-- the provider shows the channel as it is or fails; requests for pages are counted. -/
def counting (content : ChannelContent) : Nat → (q : Question) → q.Answer → Nat → Prop
  | k, .fetch _ before limit, reply, k' =>
    k' = k + 1 ∧ ∀ page, reply = .ok page → page = content.page before limit
  | k, _, _, k' => k' = k

/-- a request for the same channel, run and window, with a page size and a page limit. -/
structure AcquisitionRequest.Continues (walk request : AcquisitionRequest) : Prop where
  channelId : request.channelId = walk.channelId
  runId : request.runId = walk.runId
  windowStart : request.windowStart = walk.windowStart
  windowEnd : request.windowEnd = walk.windowEnd
  maxPages : 1 ≤ request.maxPages
  pageSize : 1 ≤ request.pageSize

section
variable (C : Contracts) (content : ChannelContent) (walk : AcquisitionRequest)

/-- every wanted post from the cursor on is stored. -/
def Covers (before : Option Int) (d : Db) : Prop :=
  ∀ p ∈ content.posts, walk.wants p → (∀ b, before = some b → b ≤ p.messageId) →
    d.storesPost C walk.channelId p

/-- what a lease says was read is stored. -/
def Lease.Sound (l : Lease) (d : Db) : Prop :=
  (l.checkpoint.beforeMessageId.isSome ∨ 0 < l.checkpoint.pages →
    Covers C content walk l.checkpoint.beforeMessageId d) ∧
  (l.checkpoint.state = .completed → Covers C content walk none d)

/-- what the lease of the walk says was read is stored. -/
def LeaseSound (d : Db) : Prop :=
  ∀ l, d.lease walk.channelId walk.runId = some l → l.Sound C content walk d

/-- where a call that may ask for `n` more pages stands. -/
structure Reading (bound n : Nat) (at_ : Cursor) (d : Db) (k : Nat) : Prop where
  sound : LeaseSound C content walk d
  covers : at_.before.isSome ∨ 0 < at_.pages ∨ n = 0 → Covers C content walk at_.before d
  counted : k + n ≤ bound

end

section
variable {C : Contracts} {content : ChannelContent} {walk request : AcquisitionRequest}
  {before : Option Int} {d d' : Db}

theorem AcquisitionRequest.Continues.wants (h : walk.Continues request) (p : ChannelPost) :
    request.wants p ↔ walk.wants p := by
  unfold AcquisitionRequest.wants
  rw [h.windowStart, h.windowEnd]

theorem Covers.mono (h : Covers C content walk before d)
    (hk : ∀ key, d.stores key → d'.stores key) : Covers C content walk before d' :=
  fun p hp hw hb => hk _ (h p hp hw hb)

theorem LeaseSound.mono (h : LeaseSound C content walk d)
    (hl : d'.lease = d.lease) (hk : ∀ key, d.stores key → d'.stores key) :
    LeaseSound C content walk d' := by
  intro l hlease
  rw [hl] at hlease
  exact ⟨fun hb => ((h l hlease).1 hb).mono hk, fun hc => ((h l hlease).2 hc).mono hk⟩

/-- a checkpoint that says no more than what is stored. -/
theorem LeaseSound.put {at_ : Cursor} {state : CheckpointState} {wait : Option Nat} {holder : Uuid}
    {now : Instant} (hc : walk.Continues request)
    (h : at_.before.isSome ∨ 0 < at_.pages → Covers C content walk at_.before d)
    (hs : state = .completed → Covers C content walk none d) :
    LeaseSound C content walk (d.putLease (checkpointLease request at_ state wait holder now)) := by
  intro l hl
  have hrow := d.lease_putLease (checkpointLease request at_ state wait holder now)
  rw [show (checkpointLease request at_ state wait holder now).channelId = walk.channelId from
      hc.channelId, show (checkpointLease request at_ state wait holder now).runId = walk.runId from
      hc.runId, hl] at hrow
  rw [Option.some.inj hrow]
  exact ⟨h, hs⟩

/-- **What a page adds**: every wanted post down to the next cursor is stored. -/
theorem Covers.page {d₁ : Db} (hage : content.Aging) (hc : walk.Continues request)
    (h : before.isSome → Covers C content walk before d) (hk : ∀ key, d.stores key → d₁.stores key)
    (hs : ∀ p ∈ content.below before (min request.pageSize 100), request.wants p →
      d₁.storesPost C request.channelId p) :
    Covers C content walk (content.after request before) d₁ := by
  have hn : 0 < min request.pageSize 100 := by
    have := hc.pageSize
    omega
  intro p hp hw hafter
  by_cases hb : ∀ b, before = some b → p.messageId < b
  · -- a post below the page is older than the window when the walk stops at this page.
    have hstored : p ∈ content.below before (min request.pageSize 100) →
        d₁.storesPost C walk.channelId p := by
      intro hon
      rw [← hc.channelId]
      exact hs p hon ((hc.wants p).mpr hw)
    refine hstored (ChannelContent.page_holds hn hp hb fun c hcur => ?_)
    unfold ChannelContent.after at hafter
    split_ifs at hafter with hreach
    · by_contra hlt
      obtain ⟨_, hpost, -, _, hpub, hold⟩ := ChannelContent.reaches_iff.mp hreach
      obtain ⟨q, hq, rfl⟩ := List.mem_map.mp hpost
      cases hpub
      have hqp : p.messageId < q.messageId :=
        lt_of_lt_of_le (not_le.mp hlt) (ChannelContent.next_le hcur hq)
      have hage' := hage p hp q (ChannelContent.mem_below hq).1 hqp
      have := hw.2.2.1
      rw [← hc.windowStart] at this
      exact absurd (this.trans hage') (not_le.mpr hold)
    · exact hafter c hcur
  · push Not at hb
    obtain ⟨b, rfl, hle⟩ := hb
    exact hk _ (h rfl p hp hw fun c hc => by cases hc; exact hle)

/-- the obligations of a walk, with every answer of the provider and every lost statement. -/
theorem readingProof (hage : content.Aging) (hc : walk.Continues request) (k₀ : Nat) :
    WalkProof C request (counting content) True (fun _ => True)
      (fun d k => LeaseSound C content walk d ∧ k = k₀)
      (Reading C content walk (k₀ + request.maxPages))
      (fun report d k => (LeaseSound C content walk d ∧ k ≤ k₀ + request.maxPages) ∧
        (report.isPartial = false → Covers C content walk none d))
      (fun d k => LeaseSound C content walk d ∧ k ≤ k₀ + request.maxPages) where
  started _ := trivial
  refused h _ := ⟨h.1, by omega⟩
  resumed := by
    rintro d _ now at_ ⟨hsound, rfl⟩ hat
    refine ⟨hsound, fun hb => ?_, by omega⟩
    unfold resumeFrom at hat
    rw [hc.channelId, hc.runId] at hat
    split at hat
    · cases hat
      have := hc.maxPages
      simp at hb
      omega
    · next l hl =>
      dsimp only at hat
      split_ifs at hat with hwait hdone
      · cases hat
        exact (hsound l hl).2 hdone
      · cases hat
        refine (hsound l hl).1 ?_
        rcases hb with hb | hb | hb
        · exact .inl hb
        · exact .inr hb
        · have hpages : request.maxPages - l.checkpoint.pages = 0 := hb
          have := hc.maxPages
          exact .inr (by omega)
  safe _ := trivial
  lost h _ := ⟨h.sound, by have := h.counted; omega⟩
  resolved := by
    rintro n at_ d k channel _ h rfl
    exact h
  missed := by
    rintro n at_ d k k' h hfails
    refine ⟨h.sound, ?_⟩
    have := h.counted
    rcases hfails with ⟨_, -, rfl⟩ | ⟨hn, _, _, -, rfl, -⟩
    · omega
    · omega
  waits := by
    rintro n at_ d k k' wait holder now h hfails
    refine ⟨trivial, .put hc (fun hb => h.covers (by tauto)) (by rintro ⟨⟩), ?_⟩
    have := h.counted
    rcases hfails with ⟨_, -, rfl⟩ | ⟨hn, _, _, -, rfl, -⟩
    · omega
    · omega
  down := by
    rintro n at_ d k k' holder now h hfails -
    refine ⟨trivial, ⟨.put hc (fun hb => h.covers (by tauto)) (by rintro ⟨⟩), ?_⟩, by rintro ⟨⟩⟩
    have := h.counted
    rcases hfails with ⟨_, -, rfl⟩ | ⟨hn, _, _, -, rfl, -⟩
    · omega
    · omega
  part := by
    rintro n at_ d k channel page k' d₁ h ⟨rfl, hpage⟩ hd₁
    refine ⟨trivial, fun _ => ⟨h.sound.mono hd₁.lease fun _ => hd₁.kept, ?_⟩⟩
    have := h.counted
    omega
  shown := by
    rintro n at_ d k channel page k' d₁ d₂ h ⟨rfl, hpage⟩ hd₁ hd₂
    have hlease := hd₂.lease.trans hd₁.lease
    refine ⟨trivial, fun _ => ⟨h.sound.mono hlease fun _ hk => hd₂.stores (hd₁.kept hk), ?_⟩⟩
    have := h.counted
    omega
  next := by
    rintro n at_ d k channel page k' d₁ d₂ reached count holder now h ⟨rfl, hpage⟩ hd₁ hd₂ hr
    obtain rfl := hpage page rfl
    rw [ChannelContent.after_eq hr]
    have hcovers : Covers C content walk (content.after request at_.before) d₂ :=
      Covers.page hage hc (fun hb => h.covers (.inl hb)) (fun _ hk => hd₂.stores (hd₁.kept hk))
        fun p hp hw => hd₂.stores (hd₁.stores hp hw)
    refine ⟨.put hc (fun _ => hcovers) (by rintro ⟨⟩), fun _ => hcovers, ?_⟩
    have := h.counted
    split_ifs
    · omega
    · omega
  finish := by
    rintro at_ d k holder now h
    have hcovers := h.covers (.inr (.inr rfl))
    refine ⟨trivial, ⟨.put hc (fun _ => hcovers) fun hs => ?_, by have := h.counted; omega⟩, ?_⟩
    · split_ifs at hs with hb
      rw [Bool.not_eq_true, Option.isSome_eq_false_iff, Option.isNone_iff_eq_none] at hb
      exact hb ▸ hcovers
    · intro hb
      simp only [Option.isSome_eq_false_iff, Option.isNone_iff_eq_none] at hb
      exact hb ▸ hcovers

/-- calls of one run keep what its lease says. -/
theorem Calls.sound {w w' : World Nat} (hage : content.Aging)
    (h : Calls C (counting content) True walk.Continues (d, w) (d', w'))
    (h0 : LeaseSound C content walk d) : LeaseSound C content walk d' := by
  refine h.keeps (I := fun d _ => LeaseSound C content walk d)
    (fun {request d w r d' w'} hc hd hx => ?_) h0
  obtain ⟨-, hend⟩ := (readingProof hage hc w.seen).walks (fun hf => absurd trivial hf) ⟨hd, rfl⟩ hx
  cases r with
  | ok report => exact hend.1.1
  | error x => exact hend.1

/-- **A walk that does not report partial has read the whole window**, however often its run was
called before, and no call asks for more pages than its limit. -/
theorem thorough_walks (C : Contracts) (content : ChannelContent) (hage : content.Aging)
    (walk : AcquisitionRequest) {d d' d'' : Db} {w w' w'' : World Nat}
    (hfirst : d.lease walk.channelId walk.runId = none)
    (hcalls : Calls C (counting content) True walk.Continues (d, w) (d', w'))
    {request : AcquisitionRequest} (hc : walk.Continues request)
    {r : Except AcquisitionError AcquisitionReport}
    (hx : Walks C (counting content) True request d' w' r d'' w'') :
    (∀ report, r = .ok report → report.isPartial = false →
      ∀ p ∈ content.posts, walk.wants p → d''.storesPost C walk.channelId p) ∧
    w''.seen ≤ w'.seen + request.maxPages := by
  have hsound : LeaseSound C content walk d' :=
    hcalls.sound hage fun l hl => by rw [hfirst] at hl; cases hl
  obtain ⟨-, hend⟩ :=
    (readingProof hage hc w'.seen).walks (fun hf => absurd trivial hf) ⟨hsound, rfl⟩ hx
  cases r with
  | ok report =>
    refine ⟨?_, hend.1.2⟩
    rintro _ ⟨⟩ hpartial p hp hw
    exact hend.2 hpartial p hp hw fun b hb => by cases hb
  | error x => exact ⟨fun _ hr => (by cases hr), hend.2⟩

end

/-! ## A sample -/

namespace Sample

/-- the channel holds one post. -/
def upstream : ChannelContent := ⟨[⟨5, "hello", 1000000⟩], by simp [Falling]⟩

/-- a walk of two pages with one post each. -/
def walk : AcquisitionRequest := ⟨50, 1, "rustlang", 0, 1000000000, 2, 1⟩

def known : Db := { Db.empty with channels := [⟨1, "rustlang", none⟩] }

/-- the provider shows a channel; when told to, it waits before any page but the first. -/
def shows (content : ChannelContent) (waits : Bool) : (q : Question) → q.Answer
  | .moment => ⟨0, id, none⟩
  | .resolve _ => .ok 0
  | .fetch _ before limit =>
    if waits && before.isSome then .error (.floodWait 1) else .ok (content.page before limit)
  | .publish _ => true

def count : Question → Nat → Nat
  | .fetch _ _ _, k => k + 1
  | _, k => k

/-- the walk is deferred at its second page, -/
def deferredWalk : Action AcquisitionError AcquisitionReport × Db × World Nat :=
  journey 1000 100 (shows upstream true) count 40 (execute contracts walk) known ⟨fun _ => False, 0⟩

/-- and called again after the wait. -/
def resumedWalk : Action AcquisitionError AcquisitionReport × Db × World Nat :=
  journey 9000000 0 (shows upstream false) count 40 (execute contracts walk) deferredWalk.2.1
    deferredWalk.2.2

theorem shows_counted (waits : Bool) (q : Question) (k : Nat) :
    counting upstream k q (shows upstream waits q) (count q k) := by
  cases q with
  | fetch channel before limit =>
    refine ⟨rfl, fun page hp => ?_⟩
    dsimp only [shows] at hp
    split_ifs at hp
    cases hp
    rfl
  | _ => exact rfl

/-- identities drawn from 100 on leave the first ones. -/
theorem unused_below {σ : Type} {w : World σ} {n : Nat} (hn : n ≤ 100)
    (h : ∀ u, w.used u → False ∨ ∃ j k, 100 ≤ j ∧ u = Nat.pair j k) :
    ∀ j < n, ∀ k, ¬ w.used (Nat.pair (0 + j) k) := fun j hj k hu => by
  obtain ⟨i, m, hi, hpair⟩ := (h _ hu).resolve_left id
  have := (Nat.pair_eq_pair.mp hpair).1
  omega

end Sample

theorem resumed_thorough :
    (Sample.deferredWalk.1.answer? = some (.error .deferred) ∧
      Sample.resumedWalk.1.answer? = some (.ok ⟨2, 1, false⟩)) ∧
    ∀ p ∈ Sample.upstream.posts, Sample.walk.wants p →
      Sample.resumedWalk.2.1.storesPost Sample.contracts 1 p := by
  have h1 : Sample.deferredWalk.1.answer? = some (.error .deferred) := by decide +kernel
  have h2 : Sample.resumedWalk.1.answer? = some (.ok ⟨2, 1, false⟩) := by decide +kernel
  obtain ⟨hx₁, hused⟩ := Sample.journey_exec
    (fun q k => Sample.shows_counted true q k) 1000 100 40
    (execute Sample.contracts Sample.walk) Sample.known
    (w := ⟨fun _ => False, 0⟩) fun _ _ _ h => h
  obtain ⟨hx₂, -⟩ := Sample.journey_exec (fun q k => Sample.shows_counted false q k) 9000000 0 40
    (execute Sample.contracts Sample.walk) Sample.deferredWalk.2.1
    (Sample.unused_below (by decide) hused)
  have hc : Sample.walk.Continues Sample.walk := ⟨rfl, rfl, rfl, rfl, by decide, by decide⟩
  refine ⟨⟨h1, h2⟩, (thorough_walks Sample.contracts Sample.upstream (fun p hp q hq hlt => ?_)
    Sample.walk rfl (.call .refl hc (travel_runs hx₁ h1)) hc (travel_runs hx₂ h2)).1 ⟨2, 1, false⟩ rfl
    rfl⟩
  rw [List.mem_singleton.mp hp, List.mem_singleton.mp hq]

end ChannelDigests
