import ChannelDigests.Absence
import ChannelDigests.Selection
import Mathlib.Data.List.MinMax

/-!
# The text that a digest uses

Walks of one channel by any runs, each over a channel that does not change while it is read.  The
latest revision of a message is found by the window end of the run that stored it, so a text that
the channel shows again may stay behind one that it has replaced.

* `showing`           the channel of one walk; the posts that were read are recorded;
* `Walked`            the rows of the messages upstream after a walk;
* `Db.Picks`          what the selection picks for a message;
* `Db.NotOvertaken`   no other text of the message lies after the one that is shown;
* `Visits`            a sequence of walks;
* `texts_current_iff`  **after each walk the selection picks the texts that were read exactly when
                      before each walk they were not overtaken**.
-/

namespace ChannelDigests
open Lib Prog

/-- the provider shows the channel as it is, or fails; the posts that it showed are recorded. -/
def showing (content : ChannelContent) :
    List ChannelPost → (q : Question) → q.Answer → List ChannelPost → Prop
  | read, .fetch _ before limit, reply, read' =>
    (∀ page, reply = .ok page → page = content.page before limit ∧
      read' = content.below before limit ++ read) ∧
    ((∀ page, reply ≠ .ok page) → read' = read)
  | read, _, _, read' => read' = read

/-- the rows of the messages upstream after a walk from `d₀` has read some posts: the rows before,
and a row for each wanted post whose key is new. -/
structure Walked (C : Contracts) (content : ChannelContent) (request : AcquisitionRequest)
    (d₀ d : Db) (read : List ChannelPost) : Prop where
  kept : ∀ r ∈ d₀.revisions, r.channelId = request.channelId → content.Holds r.messageId →
    r ∈ d.revisions
  origin : ∀ r ∈ d.revisions, r.channelId = request.channelId → content.Holds r.messageId →
    r ∈ d₀.revisions ∨ ∃ p ∈ content.posts, request.wants p ∧
      (∃ id, r = postRow C request p.shown p.publishedAt id) ∧ ¬ d₀.stores r.contentKey
  stored : ∀ p ∈ read, request.wants p → d.storesPost C request.channelId p
  upstream : ∀ p ∈ read, p ∈ content.posts
  subscriptions : d.subscriptions = d₀.subscriptions
  channels : d.channels = d₀.channels

section
variable {C : Contracts} {content : ChannelContent} {request : AcquisitionRequest}
  {before : Option Int} {d₀ d d₁ d₂ d' : Db} {read : List ChannelPost} {s : Served}

theorem Walked.refl (C : Contracts) (content : ChannelContent) (request : AcquisitionRequest)
    (d : Db) : Walked C content request d d [] where
  kept _ hr _ _ := hr
  origin _ hr _ _ := .inl hr
  stored p hp := by cases hp
  upstream p hp := by cases hp
  subscriptions := rfl
  channels := rfl

/-- a page leaves the rows that it does not prove absent. -/
theorem Shown.keeps_row (hn : 0 < s.limit) (h : Shown request s.before s.page d₁ d₂) {r : Revision}
    (hr : r ∈ d₁.revisions) (hnot : ¬ s.Proves r.messageId) : r ∈ d₂.revisions := by
  unfold Shown at h
  rw [s.provedRange] at h
  obtain ⟨now, rfl⟩ := h
  refine mem_updateWhere.mpr ⟨r, hr, .inr ⟨?_, rfl⟩⟩
  rw [← Served.gone_iff hn, Bool.not_eq_true] at hnot
  rw [hnot, Bool.and_false]

/-- **What one page adds to the rows.** -/
theorem Walked.page (hn : 0 < s.limit) (hs : s.content = content)
    (h : Walked C content request d₀ d read) (hd₁ : PageStored C request s.page.posts d d₁)
    (hd₂ : Shown request s.before s.page d₁ d₂) :
    Walked C content request d₀ d₂ (content.below s.before s.limit ++ read) := by
  subst hs
  obtain ⟨new, hnew, hrows⟩ := hd₁.rows
  have hkept : ∀ r ∈ d₀.revisions, r.channelId = request.channelId →
      s.content.Holds r.messageId → r ∈ d₁.revisions := fun r hr hc hm => by
    rw [hnew]
    exact List.mem_append_left _ (h.kept r hr hc hm)
  have hframe : d₂.subscriptions = d₁.subscriptions ∧ d₂.channels = d₁.channels := by
    unfold Shown at hd₂
    rw [s.provedRange] at hd₂
    obtain ⟨now, rfl⟩ := hd₂
    exact ⟨rfl, rfl⟩
  have hframe₁ : d₁.subscriptions = d.subscriptions ∧ d₁.channels = d.channels := by
    rw [hd₁.frame]
    exact ⟨rfl, rfl⟩
  refine ⟨fun r hr hc hm => ?_, fun r' hr' hc hm => ?_, fun p hp hw => ?_, fun p hp => ?_,
    hframe.1.trans (hframe₁.1.trans h.subscriptions), hframe.2.trans (hframe₁.2.trans h.channels)⟩
  · exact hd₂.keeps_row hn (hkept r hr hc hm) fun hproves => hproves.2.2 hm
  · obtain ⟨r, hr, hc', hm', ⟨rfl, -⟩ | ⟨-, hproves, -⟩⟩ := hd₂.rows_of hn hr'
    · rw [hnew] at hr
      rcases List.mem_append.mp hr with hr | hr
      · exact h.origin r' hr hc hm
      · obtain ⟨post, hpost, published, id, ht, rfl, hne⟩ := hrows r' hr
        obtain ⟨p, hp, rfl⟩ := List.mem_map.mp hpost
        obtain ⟨rfl, hw⟩ := takes_shown.mp ht
        refine .inr ⟨p, (ChannelContent.mem_below hp).1, hw, ⟨id, rfl⟩, ?_⟩
        rintro ⟨o, ho, hkey⟩
        have hoc : o.channelId = request.channelId := congrArg Prod.fst hkey
        have hom : o.messageId = p.messageId := congrArg (fun key => key.2.1) hkey
        exact hne o (h.kept o ho hoc (hom ▸ ⟨p, (ChannelContent.mem_below hp).1, rfl⟩)) hkey
    · exact absurd (hm' ▸ hm) hproves.2.2
  · rcases List.mem_append.mp hp with hp | hp
    · exact hd₂.stores (hd₁.stores hp hw)
    · exact hd₂.stores (hd₁.kept (h.stored p hp hw))
  · rcases List.mem_append.mp hp with hp | hp
    · exact (ChannelContent.mem_below hp).1
    · exact h.upstream p hp

theorem showing_fails {n : Nat} {at_ : Cursor} {read' : List ChannelPost}
    (h : Fails (showing content) request n at_ read read') : read' = read := by
  rcases h with ⟨reply, -, h⟩ | ⟨-, channel, reply, hne, -, h⟩
  · exact h
  · exact h hne

/-- the obligations of a walk. -/
theorem walkedProof (C : Contracts) (content : ChannelContent) (hsize : 1 ≤ request.pageSize)
    (d₀ : Db) :
    WalkProof C request (showing content) False (fun _ => True)
      (fun d x => Walked C content request d₀ d x)
      (fun _ _ d x => Walked C content request d₀ d x)
      (fun _ d x => Walked C content request d₀ d x)
      (fun d x => Walked C content request d₀ d x) where
  started _ := trivial
  refused h _ := h
  resumed h _ := h
  safe _ := trivial
  lost h _ := h
  resolved := by
    rintro n at_ d x channel _ h rfl
    exact h
  missed := by
    rintro n at_ d x x' h hfails
    exact showing_fails hfails ▸ h
  waits := by
    rintro n at_ d x x' wait holder now h hfails
    obtain rfl := showing_fails hfails
    exact ⟨trivial, ⟨h.kept, h.origin, h.stored, h.upstream, h.subscriptions, h.channels⟩⟩
  down := by
    rintro n at_ d x x' holder now h hfails -
    obtain rfl := showing_fails hfails
    exact ⟨trivial, ⟨h.kept, h.origin, h.stored, h.upstream, h.subscriptions, h.channels⟩⟩
  part := by
    rintro n at_ d x channel page x' d₁ - ⟨hpage, -⟩ -
    obtain ⟨rfl, -⟩ := hpage page rfl
    refine ⟨trivial, ?_⟩
    rintro (hf | ⟨post, hpost, -, hnone⟩)
    · exact hf.elim
    · exact absurd hnone (ChannelContent.page_readable hpost)
  shown _ _ _ _ := ⟨trivial, False.elim⟩
  next := by
    rintro n at_ d x channel page x' d₁ d₂ reached count holder now h ⟨hpage, -⟩ hd₁ hd₂ -
    obtain ⟨rfl, rfl⟩ := hpage page rfl
    have hwalked := h.page (s := ⟨content, at_.before, min request.pageSize 100⟩)
      (show 0 < min request.pageSize 100 by omega) rfl hd₁ hd₂
    exact ⟨hwalked.kept, hwalked.origin, hwalked.stored, hwalked.upstream, hwalked.subscriptions,
      hwalked.channels⟩
  finish _ _ h :=
    ⟨trivial, ⟨h.kept, h.origin, h.stored, h.upstream, h.subscriptions, h.channels⟩⟩

end

/-! ## What the selection picks -/

/-- the revision is one that the selection of the run may pick for the message. -/
structure Db.Candidate (d : Db) (run : PendingRun) (channelId : Uuid) (messageId : Int)
    (r : Revision) : Prop where
  row : r ∈ d.revisions
  channelId : r.channelId = channelId
  messageId : r.messageId = messageId
  eligible : r.eligible = true
  start : run.windowStart ≤ r.publishedAt
  until_ : r.publishedAt < run.windowEnd

/-- whatever the selection picks for the message has the text. -/
def Db.Picks (d : Db) (run : PendingRun) (channelId : Uuid) (messageId : Int) (text : String) :
    Prop :=
  ∀ cap, ∀ s ∈ (d.selectSources run cap).sources, s.channelId = channelId →
    s.messageId = messageId → s.body = text

/-- no other text of the post's message will lie after its text: each lies before a stored revision
with its text, or its text is new and each was observed by the end of the window. -/
def Db.NotOvertaken (d : Db) (C : Contracts) (run : PendingRun) (channelId : Uuid)
    (p : ChannelPost) : Prop :=
  ∀ o, d.Candidate run channelId p.messageId o → o.body ≠ some p.body →
    (∃ t, d.Candidate run channelId p.messageId t ∧ t.body = some p.body ∧ o.before t = true) ∨
      ¬ d.storesPost C channelId p ∧ o.observedAt ≤ run.windowEnd

section
variable {d : Db} {run : PendingRun} {channelId : Uuid} {messageId : Int} {text : String}

/-- every revision that may be picked has one after it that is picked, or is picked itself. -/
theorem Db.Candidate.latest {o : Revision} (ho : d.Candidate run channelId messageId o) :
    ∃ m, d.Candidate run channelId messageId m ∧ (m = o ∨ o.before m = true) ∧
      ∀ q, d.Candidate run channelId messageId q → m.before q = false := by
  classical
  let f : Revision → Int ×ₗ Nat := fun r => toLex (r.observedAt, r.revisionId)
  let rows := d.revisions.filter fun r => decide (d.Candidate run channelId messageId r)
  have hmem : ∀ r, r ∈ rows ↔ d.Candidate run channelId messageId r := fun r => by
    simp only [rows, List.mem_filter, decide_eq_true_eq]
    exact ⟨fun h => h.2, fun h => ⟨h.row, h⟩⟩
  have hbefore : ∀ a b : Revision, a.before b = true ↔ f a < f b := fun a b => decide_eq_true_iff
  rcases hmax : rows.argmax f with _ | m
  · rw [List.argmax_eq_none] at hmax
    have := (hmem o).mpr ho
    rw [hmax] at this
    cases this
  · have hmaximal : ∀ q, d.Candidate run channelId messageId q → f q ≤ f m :=
      fun q hq => List.le_of_mem_argmax ((hmem q).mpr hq) hmax
    have hlatest : ∀ r, f m ≤ f r → ∀ q, d.Candidate run channelId messageId q →
        r.before q = false := fun r hr q hq => by
      rw [← Bool.not_eq_true, hbefore]
      exact not_lt.mpr ((hmaximal q hq).trans hr)
    rcases (hmaximal o ho).lt_or_eq with hlt | heq
    · exact ⟨m, (hmem m).mp (List.argmax_mem hmax), .inr ((hbefore o m).mpr hlt), hlatest m le_rfl⟩
    · exact ⟨o, ho, .inl rfl, hlatest o heq.ge⟩

/-- the latest revision of a message. -/
theorem latest_iff (henabled : d.enabled run.ownerId channelId = true)
    (hknown : ∃ c ∈ d.channels, c.channelId = channelId) {r : Revision} :
    r ∈ d.latestRevisions run ∧ r.channelId = channelId ∧ r.messageId = messageId ↔
      d.Candidate run channelId messageId r ∧
        ∀ o, d.Candidate run channelId messageId o → r.before o = false := by
  rw [mem_latestRevisions]
  constructor
  · rintro ⟨⟨⟨hw, he, hk⟩, hlast⟩, rfl, rfl⟩
    obtain ⟨hr, -, hs, hu⟩ := mem_windowRevisions.mp hw
    refine ⟨⟨hr, rfl, rfl, he, hs, hu⟩, fun o ho => hlast o ?_ ho.eligible ?_ ?_⟩
    · exact mem_windowRevisions.mpr ⟨ho.row, ho.channelId ▸ henabled, ho.start, ho.until_⟩
    · exact ho.channelId ▸ hknown
    · simp [Revision.sameMessage, ho.channelId, ho.messageId]
  · rintro ⟨hr, hlast⟩
    refine ⟨⟨⟨mem_windowRevisions.mpr ⟨hr.row, hr.channelId ▸ henabled, hr.start, hr.until_⟩,
      hr.eligible, hr.channelId ▸ hknown⟩, fun o ho he hk hsame => hlast o ?_⟩, hr.channelId,
      hr.messageId⟩
    obtain ⟨ho, -, hs, hu⟩ := mem_windowRevisions.mp ho
    simp only [Revision.sameMessage, Bool.and_eq_true, decide_eq_true_eq] at hsame
    exact ⟨ho, hsame.1 ▸ hr.channelId, hsame.2 ▸ hr.messageId, he, hs, hu⟩

/-- what is picked for a message is its latest revision. -/
theorem picks_iff (henabled : d.enabled run.ownerId channelId = true)
    (hknown : ∃ c ∈ d.channels, c.channelId = channelId) :
    d.Picks run channelId messageId text ↔ ∀ r, d.Candidate run channelId messageId r →
      (∀ o, d.Candidate run channelId messageId o → r.before o = false) → r.body = some text := by
  have hbody : ∀ {r : Revision}, r.eligible = true → (r.body.getD "" = text ↔ r.body = some text) := by
    intro r he
    cases hb : r.body with
    | none => simp [Revision.eligible, hb] at he
    | some b => simp
  constructor
  · intro h r hr hlast
    have hlatest := (latest_iff henabled hknown).mpr ⟨hr, hlast⟩
    refine (hbody hr.eligible).mp (h (d.latestRevisions run).length (d.manifestSource run r) ?_
      hr.channelId hr.messageId)
    simp only [Db.selectSources, List.mem_reverse, List.mem_map]
    refine ⟨r, ?_, rfl⟩
    rw [List.take_of_length_le (List.length_insertionSort _ _).le]
    exact (List.perm_insertionSort _ _).mem_iff.mpr hlatest.1
  · intro h cap s hs hc hm
    obtain ⟨r, hr, rfl⟩ := mem_selectSources hs
    obtain ⟨hcand, hlast⟩ := (latest_iff henabled hknown).mp ⟨hr, hc, hm⟩
    exact (hbody hcand.eligible).mpr (h r hcand hlast)

end

/-! ## One walk -/

/-- the rows that a walk adds have identities above those that were stored. -/
def Rising (d₀ d : Db) : Prop :=
  ∀ r ∈ d.revisions, r ∉ d₀.revisions → ∀ o ∈ d₀.revisions, o.revisionId < r.revisionId

section
variable {C : Contracts} {content : ChannelContent} {request : AcquisitionRequest} {d₀ d : Db}
  {read : List ChannelPost} {p q : ChannelPost} {run : PendingRun}

/-- the revisions that may be picked after a walk: those before, and one with the text that was
read when it was not stored. -/
theorem Walked.candidate (h : Walked C content request d₀ d read) (hp : p ∈ content.posts)
    {r : Revision} (hr : d.Candidate run request.channelId p.messageId r) :
    d₀.Candidate run request.channelId p.messageId r ∨
      (r.body = some p.body ∧ r.observedAt = request.windowEnd ∧
        ¬ d₀.storesPost C request.channelId p) := by
  have hholds : content.Holds r.messageId := ⟨p, hp, hr.messageId.symm⟩
  rcases h.origin r hr.row hr.channelId hholds with hrow | ⟨q, hq, -, ⟨id, rfl⟩, hnot⟩
  · exact .inl ⟨hrow, hr.channelId, hr.messageId, hr.eligible, hr.start, hr.until_⟩
  · obtain rfl := content.falling.eq hq hp hr.messageId
    exact .inr ⟨rfl, rfl, hnot⟩

theorem Walked.candidate_kept (h : Walked C content request d₀ d read) (hp : p ∈ content.posts)
    {r : Revision} (hr : d₀.Candidate run request.channelId p.messageId r) :
    d.Candidate run request.channelId p.messageId r :=
  ⟨h.kept r hr.row hr.channelId ⟨p, hp, hr.messageId.symm⟩, hr.channelId, hr.messageId, hr.eligible,
    hr.start, hr.until_⟩

/-- a text that was read and not stored has a row now. -/
theorem Walked.candidate_new (h : Walked C content request d₀ d read) (hp : p ∈ read)
    (hw : request.wants p) (hs : run.windowStart = request.windowStart)
    (he : run.windowEnd = request.windowEnd) (hnew : ¬ d₀.storesPost C request.channelId p) :
    ∃ r, d.Candidate run request.channelId p.messageId r ∧ r ∉ d₀.revisions ∧
      r.body = some p.body ∧ r.observedAt = request.windowEnd := by
  obtain ⟨r, hr, hkey⟩ := h.stored p hp hw
  have hrow : r ∉ d₀.revisions := fun hold => hnew ⟨r, hold, hkey⟩
  have hc : r.channelId = request.channelId := congrArg Prod.fst hkey
  have hm : r.messageId = p.messageId := congrArg (fun key => key.2.1) hkey
  have hposts := h.upstream p hp
  rcases h.origin r hr hc ⟨p, hposts, hm.symm⟩ with hold | ⟨q, hq, -, ⟨id, rfl⟩, -⟩
  · exact absurd hold hrow
  · obtain rfl := content.falling.eq hq hposts hm
    exact ⟨_, ⟨hr, rfl, rfl, rfl, hs ▸ hw.2.2.1, he ▸ hw.2.2.2⟩, hrow, rfl, rfl⟩

/-- **After one walk** the selection picks a text that was read exactly when it was not overtaken. -/
theorem Walked.picks_iff (h : Walked C content request d₀ d read) (hids : Rising d₀ d)
    (hp : p ∈ read) (hw : request.wants p) (hs : run.windowStart = request.windowStart)
    (he : run.windowEnd = request.windowEnd)
    (henabled : d₀.enabled run.ownerId request.channelId = true)
    (hknown : ∃ c ∈ d₀.channels, c.channelId = request.channelId) :
    d.Picks run request.channelId p.messageId p.body ↔
      d₀.NotOvertaken C run request.channelId p := by
  have hposts := h.upstream p hp
  have henabled' : d.enabled run.ownerId request.channelId = true := by
    unfold Db.enabled at henabled ⊢
    rwa [h.subscriptions]
  rw [ChannelDigests.picks_iff henabled' (by rwa [h.channels])]
  constructor
  · intro hpicks o ho hne
    obtain ⟨m, hm, hom, hlast⟩ := (h.candidate_kept hposts ho).latest
    have hbody := hpicks m hm hlast
    have hom := hom.resolve_left fun heq => hne (heq ▸ hbody)
    refine (h.candidate hposts hm).imp (fun hold => ⟨m, hold, hbody, hom⟩) ?_
    rintro ⟨-, hobserved, hnew⟩
    refine ⟨hnew, ?_⟩
    have hlt := Prod.Lex.lt_iff.mp (of_decide_eq_true hom)
    rw [he, ← hobserved]
    exact hlt.elim le_of_lt fun heq => heq.1.le
  · intro hnot r hr hlast
    by_contra hne
    have hold := (h.candidate hposts hr).resolve_right fun hnew => hne hnew.1
    rcases hnot r hold hne with ⟨t, ht, -, hbefore⟩ | ⟨hnew, hobserved⟩
    · rw [hlast t (h.candidate_kept hposts ht)] at hbefore
      cases hbefore
    · obtain ⟨n, hn, hrow, -, hat⟩ := h.candidate_new hp hw hs he hnew
      have hid := hids n hn.row hrow r hold.row
      have hbefore : r.before n = true := by
        refine decide_eq_true (Prod.Lex.lt_iff.mpr ?_)
        rw [he, ← hat] at hobserved
        exact hobserved.lt_or_eq.imp id fun heq => ⟨heq, hid⟩
      rw [hlast n hn] at hbefore
      cases hbefore

end

/-! ## Sequences of walks -/

/-- one walk of a sequence: the channel that it read, the states around it and what it read. -/
structure Visit where
  content : ChannelContent
  request : AcquisitionRequest
  before : Db
  after : Db
  read : List ChannelPost

/-- walks of one channel, one after the other; the channel changes between them only. -/
inductive Visits (C : Contracts) (channelId : Uuid) (d : Db) : List Visit → Db → Prop where
  | nil : Visits C channelId d [] d
  | snoc {steps content request d₁ d₂ r} {w w' : World (List ChannelPost)} :
      Visits C channelId d steps d₁ → request.channelId = channelId → 1 ≤ request.pageSize →
      Supplied request False d₁ w.used → w.seen = [] →
      Walks C (showing content) False request d₁ w r d₂ w' → Rising d₁ d₂ →
      Visits C channelId d (steps ++ [⟨content, request, d₁, d₂, w'.seen⟩]) d₂

/-- the run selects from the window of the walk, and its owner has subscribed to the channel. -/
structure Visit.Serves (step : Visit) (run : PendingRun) : Prop where
  windowStart : run.windowStart = step.request.windowStart
  windowEnd : run.windowEnd = step.request.windowEnd
  enabled : step.before.enabled run.ownerId step.request.channelId = true
  known : ∃ c ∈ step.before.channels, c.channelId = step.request.channelId

/-- **After each walk of a sequence the selection picks the texts that were read exactly when,
before each walk, they were not overtaken.** -/
theorem texts_current_iff {C : Contracts} {channelId : Uuid} {d d' : Db} {steps : List Visit}
    (h : Visits C channelId d steps d') :
    (∀ step ∈ steps, ∀ p ∈ step.read, step.request.wants p → ∀ run, step.Serves run →
      step.after.Picks run channelId p.messageId p.body) ↔
    ∀ step ∈ steps, ∀ p ∈ step.read, step.request.wants p → ∀ run, step.Serves run →
      step.before.NotOvertaken C run channelId p := by
  have hstep : ∀ step ∈ steps, step.request.channelId = channelId ∧ Rising step.before step.after ∧
      Walked C step.content step.request step.before step.after step.read := by
    induction h with
    | nil => exact fun _ hs => by cases hs
    | @snoc steps content request d₁ d₂ r w w' _ hc hsize hs hseen hx hids ih =>
      intro step hmem
      rcases List.mem_append.mp hmem with hmem | hmem
      · exact ih step hmem
      · obtain rfl := List.mem_singleton.mp hmem
        obtain ⟨-, hend⟩ := (walkedProof C content hsize d₁).walks hs
          (hseen ▸ Walked.refl C content request d₁) hx
        refine ⟨hc, hids, ?_⟩
        cases r with
        | ok report => exact hend
        | error x => exact hend
  refine forall_congr' fun step => forall_congr' fun hmem => ?_
  obtain ⟨rfl, hids, hwalked⟩ := hstep step hmem
  exact forall_congr' fun p => forall_congr' fun hp => forall_congr' fun hw =>
    forall_congr' fun run => forall_congr' fun hr =>
      hwalked.picks_iff hids hp hw hr.windowStart hr.windowEnd hr.enabled hr.known

/-! ## A sample -/

namespace Sample

/-- the post of the channel with another text. -/
def reworded : ChannelContent := ⟨[⟨5, "hello again", 1000000⟩], by simp [Falling]⟩

/-- the owner has subscribed to the channel. -/
def subscribed : Db := { known with subscriptions := [⟨1, 7, 1, 0, true⟩] }

/-- a walk of the run over the same window. -/
def walkOf (runId : Uuid) : AcquisitionRequest := { walk with runId := runId }

/-- what was read. -/
def record (content : ChannelContent) : Question → List ChannelPost → List ChannelPost
  | .fetch _ before limit, read => content.below before limit ++ read
  | _, read => read

/-- identities below these are used. -/
def usedBelow (first : Nat) : World (List ChannelPost) :=
  ⟨fun u => ∃ j k, j < first ∧ u = Nat.pair j k, []⟩

/-- one walk of the sequence. -/
def visit (runId : Uuid) (content : ChannelContent) (first : Nat) (d : Db) :
    Action AcquisitionError AcquisitionReport × Db × World (List ChannelPost) :=
  journey 1000 first (shows content false) (record content) 40 (execute contracts (walkOf runId)) d
    (usedBelow first)

/-- the text is read, it is edited, and the edit is reverted. -/
def first := visit 50 upstream 100 subscribed
def second := visit 51 reworded 200 first.2.1
def third := visit 52 upstream 300 second.2.1

def visits : List Visit :=
  [⟨upstream, walkOf 50, subscribed, first.2.1, first.2.2.seen⟩,
    ⟨reworded, walkOf 51, first.2.1, second.2.1, second.2.2.seen⟩,
    ⟨upstream, walkOf 52, second.2.1, third.2.1, third.2.2.seen⟩]

theorem shows_recorded (content : ChannelContent) (q : Question) (read : List ChannelPost) :
    showing content read q (shows content false q) (record content q read) := by
  cases q with
  | fetch channel before limit =>
    refine ⟨fun page hp => ?_, fun hne => absurd rfl (hne _)⟩
    cases hp
    exact ⟨rfl, rfl⟩
  | _ => exact rfl

/-- a visit that ends is a walk of the sequence. -/
theorem visit_walks {runId first : Nat} {content : ChannelContent} {d : Db}
    {report : AcquisitionReport} (h : (visit runId content first d).1.answer? = some (.ok report)) :
    Walks contracts (showing content) False (walkOf runId) d (usedBelow first) (.ok report)
      (visit runId content first d).2.1 (visit runId content first d).2.2 := by
  refine travel_runs (journey_exec (shows_recorded content) _ _ _ _ _ fun j hj k hu => ?_).1 h
  obtain ⟨i, m, hi, hpair⟩ := hu
  have := (Nat.pair_eq_pair.mp hpair).1
  omega

theorem stored_supplied {runId first : Nat} {d : Db} {ids : List (Nat × Nat)}
    (h : d.revisions.map (·.revisionId) = ids.map fun p => Nat.pair p.1 p.2)
    (hlt : ∀ p ∈ ids, p.1 < first) (hc : d.channels = known.channels) :
    Supplied (walkOf runId) False d (usedBelow first).used := by
  refine fun _ => ⟨fun r hr => ?_, ⟨1, "rustlang", none⟩, hc ▸ List.mem_singleton.mpr rfl, rfl⟩
  have hmem := List.mem_map_of_mem (f := (·.revisionId)) hr
  rw [h] at hmem
  obtain ⟨p, hp, hpair⟩ := List.mem_map.mp hmem
  exact ⟨p.1, p.2, hlt p hp, hpair.symm⟩

theorem first_walks : Walks contracts (showing upstream) False (walkOf 50) subscribed
    (usedBelow 100) (.ok ⟨2, 1, false⟩) first.2.1 first.2.2 :=
  visit_walks (by decide +kernel)

theorem second_walks : Walks contracts (showing reworded) False (walkOf 51) first.2.1
    (usedBelow 200) (.ok ⟨2, 1, false⟩) second.2.1 second.2.2 :=
  visit_walks (by decide +kernel)

theorem third_walks : Walks contracts (showing upstream) False (walkOf 52) second.2.1
    (usedBelow 300) (.ok ⟨2, 1, false⟩) third.2.1 third.2.2 :=
  visit_walks (by decide +kernel)

theorem stored_before : subscribed.revisions.map (·.revisionId) =
    ([] : List (Nat × Nat)).map fun p => Nat.pair p.1 p.2 := rfl

theorem stored_after_first : first.2.1.revisions.map (·.revisionId) =
    [(135, 0)].map fun p => Nat.pair p.1 p.2 := by decide +kernel

theorem stored_after_second : second.2.1.revisions.map (·.revisionId) =
    [(135, 0), (235, 0)].map fun p => Nat.pair p.1 p.2 := by decide +kernel

theorem visited : Visits contracts 1 subscribed visits third.2.1 := by
  have hs₁ : Supplied (walkOf 50) False subscribed (usedBelow 100).used :=
    stored_supplied stored_before (by decide) rfl
  have hs₂ : Supplied (walkOf 51) False first.2.1 (usedBelow 200).used :=
    stored_supplied stored_after_first (by decide) (by decide +kernel)
  have hs₃ : Supplied (walkOf 52) False second.2.1 (usedBelow 300).used :=
    stored_supplied stored_after_second (by decide) (by decide +kernel)
  have hr₁ : Rising subscribed first.2.1 := by unfold Rising; decide +kernel
  have hr₂ : Rising first.2.1 second.2.1 := by unfold Rising; decide +kernel
  have hr₃ : Rising second.2.1 third.2.1 := by unfold Rising; decide +kernel
  have v₁ : Visits contracts 1 subscribed
      ([] ++ [⟨upstream, walkOf 50, subscribed, first.2.1, first.2.2.seen⟩]) first.2.1 :=
    .snoc .nil rfl (by decide) hs₁ rfl first_walks hr₁
  have v₂ : Visits contracts 1 subscribed
      ([] ++ [⟨upstream, walkOf 50, subscribed, first.2.1, first.2.2.seen⟩] ++
        [⟨reworded, walkOf 51, first.2.1, second.2.1, second.2.2.seen⟩]) second.2.1 :=
    .snoc v₁ rfl (by decide) hs₂ rfl second_walks hr₂
  have v₃ : Visits contracts 1 subscribed
      ([] ++ [⟨upstream, walkOf 50, subscribed, first.2.1, first.2.2.seen⟩] ++
        [⟨reworded, walkOf 51, first.2.1, second.2.1, second.2.2.seen⟩] ++
        [⟨upstream, walkOf 52, second.2.1, third.2.1, third.2.2.seen⟩]) third.2.1 :=
    .snoc v₂ rfl (by decide) hs₃ rfl third_walks hr₃
  exact v₃

/-- a run that selects from the window. -/
def selecting : PendingRun := ⟨52, 7, 0, 1000000000, .ru, .acquiring, 14⟩

end Sample

/-- the third walk reads the first text again, and the selection still picks the second one. -/
theorem reverted_text_stays : Visits Sample.contracts 1 Sample.subscribed Sample.visits
      Sample.third.2.1 ∧
    ¬ ∀ step ∈ Sample.visits, ∀ p ∈ step.read, step.request.wants p → ∀ run, step.Serves run →
      step.after.Picks run 1 p.messageId p.body := by
  refine ⟨Sample.visited, fun h => ?_⟩
  have hread : (⟨5, "hello", 1000000⟩ : ChannelPost) ∈ Sample.third.2.2.seen := by decide +kernel
  have hpicks := h _ (List.mem_cons_of_mem _ (List.mem_cons_of_mem _ List.mem_cons_self)) _ hread
    ⟨by decide, by decide, by decide, by decide⟩ Sample.selecting
    ⟨rfl, rfl, by decide +kernel, ⟨1, "rustlang", none⟩, by decide +kernel, rfl⟩
  have hpicked : (Sample.third.2.1.selectSources Sample.selecting 1).sources.map
      (fun s => (s.channelId, s.messageId, s.body)) = [(1, 5, "hello again")] := by decide +kernel
  have hmem : ((1, 5, "hello again") : Uuid × Int × String) ∈
      (Sample.third.2.1.selectSources Sample.selecting 1).sources.map
        (fun s => (s.channelId, s.messageId, s.body)) := by
    rw [hpicked]
    exact List.mem_singleton.mpr rfl
  obtain ⟨s, hs, hfields⟩ := List.mem_map.mp hmem
  simp only [Prod.mk.injEq] at hfields
  have := hpicks 1 s hs hfields.1 hfields.2.1
  rw [hfields.2.2] at this
  revert this
  decide

theorem visits_current_iff : Sample.third.1.answer? = some (.ok ⟨2, 1, false⟩) ∧
    ((∀ step ∈ Sample.visits, ∀ p ∈ step.read, step.request.wants p → ∀ run, step.Serves run →
      step.after.Picks run 1 p.messageId p.body) ↔
    ∀ step ∈ Sample.visits, ∀ p ∈ step.read, step.request.wants p → ∀ run, step.Serves run →
      step.before.NotOvertaken Sample.contracts run 1 p) :=
  ⟨by decide +kernel, texts_current_iff Sample.visited⟩

end ChannelDigests
