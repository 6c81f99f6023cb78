import ChannelDigests.Thorough

/-!
# A walk that is called again after a crash

A channel that stays as it is, an honest provider, and a first walk that is cut anywhere.  What is
still to be read from a cursor is a function of the channel, so that the walk and its repetition
can be compared.

* `scan`, `readFrom`   the cursor that `n` pages leave, and the posts on them;
* `restWalk`           a walk ends at `scan`, and stores what `readFrom` says;
* `CutAt`              what a cut walk leaves: its lease says how many pages are stored;
* `restart_repeats_iff`  **the repetition ends as the walk does, unless the lease is the last page
                       checkpoint and the page limit lets it read some pages again but not all**.
-/

namespace ChannelDigests
open Lib Prog

namespace ChannelContent

/-- the cursor of a walk that reads at most `n` pages. -/
def scan (content : ChannelContent) (request : AcquisitionRequest) : Nat → Option Int → Option Int
  | 0, before => before
  | n + 1, before => (content.after request before).bind fun b => scan content request n (some b)

/-- the posts on these pages. -/
def readFrom (content : ChannelContent) (request : AcquisitionRequest) :
    Nat → Option Int → List ChannelPost
  | 0, _ => []
  | n + 1, before => content.below before (min request.pageSize 100) ++
    (content.after request before).elim [] fun b => readFrom content request n (some b)

variable {content : ChannelContent} {request : AcquisitionRequest} {before : Option Int} {c : Int}
  {j k m n : Nat}

/-- one page, and the pages that a walk still reads. -/
theorem scan_next : content.scan request (n + 1) before =
    content.scan request (if (content.after request before).isNone then 0 else n)
      (content.after request before) := by
  rw [scan]
  cases content.after request before with
  | none => rfl
  | some b => rfl

theorem readFrom_next : content.readFrom request (n + 1) before =
    content.below before (min request.pageSize 100) ++
      content.readFrom request (if (content.after request before).isNone then 0 else n)
        (content.after request before) := by
  rw [readFrom]
  cases content.after request before with
  | none => rfl
  | some b => rfl

/-- a walk that goes on at a cursor. -/
theorem scan_add (h : content.scan request j before = some c) (k : Nat) :
    content.scan request (j + k) before = content.scan request k (some c) := by
  induction j generalizing before with
  | zero => rw [Nat.zero_add, show before = some c from h]
  | succ j ih =>
    rw [Nat.add_right_comm]
    rw [scan] at h ⊢
    cases ha : content.after request before with
    | none => rw [ha] at h; cases h
    | some b =>
      rw [ha] at h
      exact ih h

theorem readFrom_add (h : content.scan request j before = some c) (k : Nat) :
    content.readFrom request (j + k) before =
      content.readFrom request j before ++ content.readFrom request k (some c) := by
  induction j generalizing before with
  | zero => rw [Nat.zero_add, show before = some c from h]; rfl
  | succ j ih =>
    rw [Nat.add_right_comm]
    rw [scan] at h
    rw [readFrom, readFrom]
    cases ha : content.after request before with
    | none => rw [ha] at h; cases h
    | some b =>
      rw [ha] at h
      rw [Option.elim_some, Option.elim_some, ih h, List.append_assoc]

/-- a walk that has come to its end reads no more. -/
theorem scan_done (hj : 0 < j) (h : content.scan request j before = none) (hm : j ≤ m) :
    content.scan request m before = none ∧
      content.readFrom request m before = content.readFrom request j before := by
  induction j generalizing before m with
  | zero => omega
  | succ j ih =>
    obtain ⟨m, rfl⟩ : ∃ n, m = n + 1 := ⟨m - 1, by omega⟩
    rw [scan] at h
    rw [scan, readFrom, readFrom]
    cases ha : content.after request before with
    | none => exact ⟨rfl, rfl⟩
    | some b =>
      rw [ha] at h
      -- the cursor `b` is not the end, so a page is left.
      have hj : 0 < j := by
        rcases Nat.eq_zero_or_pos j with rfl | hj
        · cases h
        · exact hj
      obtain ⟨h1, h2⟩ := ih hj h (by omega : j ≤ m)
      exact ⟨h1, by rw [Option.elim_some, Option.elim_some, h2]⟩

/-- more pages show more posts. -/
theorem readFrom_mono {p : ChannelPost} (hjm : j ≤ m) (h : p ∈ content.readFrom request j before) :
    p ∈ content.readFrom request m before := by
  induction j generalizing before m with
  | zero => cases h
  | succ j ih =>
    obtain ⟨m, rfl⟩ : ∃ n, m = n + 1 := ⟨m - 1, by omega⟩
    rw [readFrom] at h ⊢
    refine List.mem_append.mpr ((List.mem_append.mp h).imp_right fun h => ?_)
    cases ha : content.after request before with
    | none => rw [ha] at h; cases h
    | some b =>
      rw [ha] at h
      exact ih (by omega) h

/-- the pages of a walk from the top, one after the other. -/
theorem scan_succ (h : k = 0 ∨ (content.scan request k none).isSome) :
    content.scan request (k + 1) none = content.after request (content.scan request k none) ∧
      ∀ p, p ∈ content.readFrom request (k + 1) none ↔ p ∈ content.readFrom request k none ∨
        p ∈ content.below (content.scan request k none) (min request.pageSize 100) := by
  have hone : ∀ b, content.scan request 1 b = content.after request b ∧
      content.readFrom request 1 b = content.below b (min request.pageSize 100) := fun b => by
    rw [scan, readFrom]
    cases content.after request b <;> simp [scan, readFrom]
  rcases h with rfl | h
  · exact ⟨(hone none).1, fun p => by rw [(hone none).2]; simp [readFrom, scan]⟩
  · obtain ⟨c, hc⟩ := Option.isSome_iff_exists.mp h
    rw [scan_add hc 1, readFrom_add hc 1, hc]
    exact ⟨(hone _).1, fun p => by rw [(hone _).2, List.mem_append]⟩

end ChannelContent

/-! ## A whole walk -/

/-- the provider shows the channel as it is. -/
def steady (content : ChannelContent) : Unit → (q : Question) → q.Answer → Unit → Prop
  | _, .resolve _, reply, _ => ∃ channel, reply = .ok channel
  | _, .fetch _ before limit, reply, _ => reply = .ok (content.page before limit)
  | _, _, _, _ => True

section
variable {C : Contracts} {content : ChannelContent} {request : AcquisitionRequest} {d d' : Db}
  {w w' : World Unit}

theorem steady_answers {n : Nat} {at_ : Cursor} {x x' : Unit} :
    ¬ Fails (steady content) request n at_ x x' := by
  rintro (⟨reply, hne, channel, rfl⟩ | ⟨-, channel, reply, hne, rfl⟩)
  · exact hne channel rfl
  · exact hne _ rfl

/-- what a walk with `n` pages left will have stored. -/
def Db.Stores (d : Db) (C : Contracts) (content : ChannelContent) (request : AcquisitionRequest)
    (n : Nat) (before : Option Int) (key : Uuid × Int × Digest) : Prop :=
  d.stores key ∨ Wanted C request (content.readFrom request n before) key

/-- the state of the last checkpoint of a walk. -/
def lastState (before : Option Int) : CheckpointState :=
  if before.isSome then .pageLimit else .completed

/-- what is still to be read decides the report, the checkpoint and the stored texts. -/
theorem restWalk (C : Contracts) (content : ChannelContent) (request : AcquisitionRequest)
    {d₀ : Db} {at₀ : Cursor} (hat : ∀ now, resumeFrom (d₀.lease request.channelId request.runId)
      request.maxPages now = .ok at₀) :
    WalkProof C request (steady content) False (fun _ => True) (fun d _ => d = d₀)
      (fun n at_ d _ => content.scan request n at_.before =
          content.scan request (request.maxPages - at₀.pages) at₀.before ∧
        ∀ key, d.Stores C content request n at_.before key ↔
          d₀.Stores C content request (request.maxPages - at₀.pages) at₀.before key)
      (fun report d _ =>
        report.isPartial =
          (content.scan request (request.maxPages - at₀.pages) at₀.before).isSome ∧
        (d.lease request.channelId request.runId).map (·.checkpoint.state) =
          some (lastState (content.scan request (request.maxPages - at₀.pages) at₀.before)) ∧
        ∀ key, d.stores key ↔
          d₀.Stores C content request (request.maxPages - at₀.pages) at₀.before key)
      (fun _ _ => publicUsername request.username = false) where
  started _ := trivial
  refused := by
    rintro d _ rfl (hf | ⟨now, err, herr⟩)
    · exact hf.elim
    · rw [hat now] at herr
      cases herr
  resumed := by
    rintro d _ now at_ rfl hr
    rw [hat now] at hr
    cases hr
    exact ⟨rfl, fun _ => Iff.rfl⟩
  safe _ := trivial
  lost _ h := h.resolve_left id
  resolved h _ := h
  missed _ hf := (steady_answers hf).elim
  waits _ _ _ _ hf := (steady_answers hf).elim
  down _ _ _ hf := (steady_answers hf).elim
  part := by
    rintro n at_ d x channel page x' d₁ - hpage -
    cases hpage
    refine ⟨trivial, ?_⟩
    rintro (hf | ⟨post, hpost, -, hnone⟩)
    · exact hf.elim
    · exact absurd hnone (ChannelContent.page_readable hpost)
  shown _ _ _ _ := ⟨trivial, False.elim⟩
  next := by
    rintro n at_ d x channel page x' d₁ d₂ reached count holder now ⟨hscan, hstores⟩ hpage hd₁ hd₂ hr
    cases hpage
    rw [ChannelContent.after_eq hr]
    refine ⟨ChannelContent.scan_next.symm.trans hscan, fun key => ?_⟩
    rw [← hstores key]
    unfold Db.Stores
    rw [show (d₂.putLease _).stores key ↔ d₂.stores key from Iff.rfl, hd₁.stores_iff hd₂,
      ChannelContent.readFrom_next, or_assoc]
    refine or_congr_right ?_
    simp only [Wanted, List.mem_append, or_and_right, exists_or]
  finish := by
    rintro at_ d x holder now ⟨hscan, hstores⟩
    have hbefore : at_.before = _ := hscan
    refine ⟨trivial, by rw [← hbefore], ?_, fun key => ?_⟩
    · rw [← hbefore]
      exact congrArg (Option.map _) (d.lease_putLease _)
    · rw [← hstores key]
      simp [Db.Stores, ChannelContent.readFrom, Wanted, Db.stores, Db.putLease]

/-- how a walk ends that is not cut. -/
structure WalkEnds (C : Contracts) (content : ChannelContent) (request : AcquisitionRequest)
    (d₀ : Db) (at₀ : Cursor) (report : AcquisitionReport) (d : Db) : Prop where
  flag : report.isPartial =
    (content.scan request (request.maxPages - at₀.pages) at₀.before).isSome
  checkpoint : (d.lease request.channelId request.runId).map (·.checkpoint.state) =
    some (lastState (content.scan request (request.maxPages - at₀.pages) at₀.before))
  stored : ∀ key, d.stores key ↔
    d₀.Stores C content request (request.maxPages - at₀.pages) at₀.before key

/-- a walk whose channel has no acceptable name gives no report. -/
theorem unnamed_fails (hname : publicUsername request.username = false) {report : AcquisitionReport}
    (h : Walks C (steady content) False request d w (.ok report) d' w') : False := by
  have hsafe : Safe (S := service) Eq (World.answers (steady content) False)
      (always fun _ _ => True) (execute C request) (fun r _ _ => ∀ report, r ≠ .ok report) d w := by
    unfold execute
    refine (safe_bind (S := service) _ _ _).mpr (Safe.imp (fun r d₁ w₁ _ => ?_)
      (safe_trivial (resume request) d w))
    cases r with
    | error x => exact fun _ => nofun
    | ok at_ =>
      refine (safe_ite (S := service) _ _ _ _).mpr ⟨fun _ => fun _ => nofun, fun hn => ?_⟩
      rw [hname] at hn
      exact absurd rfl hn
  obtain ⟨_, -, hq⟩ := hsafe.runs (fun _ => rfl) Eq.trans h
  exact hq report rfl

/-- **A walk that is not cut ends where what is still to be read ends.** -/
theorem Walks.ends {d₀ : Db} {at₀ : Cursor} (hat : ∀ now, resumeFrom
      (d₀.lease request.channelId request.runId) request.maxPages now = .ok at₀)
    (hname : publicUsername request.username = true) (hs : Supplied request False d₀ w.used)
    {r : Except AcquisitionError AcquisitionReport}
    (h : Walks C (steady content) False request d₀ w r d' w') :
    ∃ report, r = .ok report ∧ WalkEnds C content request d₀ at₀ report d' := by
  obtain ⟨-, hend⟩ := (restWalk C content request hat).walks hs rfl h
  cases r with
  | ok report => exact ⟨report, rfl, hend.1, hend.2.1, hend.2.2⟩
  | error x =>
    rw [show publicUsername request.username = false from hend] at hname
    cases hname

end

/-! ## A walk that is cut -/

section
variable (C : Contracts) (content : ChannelContent) (request : AcquisitionRequest) (d₀ : Db)

/-- the checkpoint of a walk that has read `k` pages. -/
structure Checkpoint.At (c : Checkpoint) (k : Nat) : Prop where
  pages : c.pages = k
  cursor : c.beforeMessageId = content.scan request k none
  state : c.state = .pageCommitted ∨
    c.state = .completed ∧ content.scan request k none = none ∨
    c.state = .pageLimit ∧ (content.scan request k none).isSome

/-- what a cut leaves of a walk from `d₀` whose lease counts `k` pages: they are stored, and
nothing else than the posts of the walk is. -/
structure CutAt (k : Nat) (d : Db) : Prop where
  le : k ≤ request.maxPages
  rising : ∀ j, 0 < j → j < k → (content.scan request j none).isSome
  lease : d.lease request.channelId request.runId = none ∧ k = 0 ∨
    0 < k ∧ ∃ l, d.lease request.channelId request.runId = some l ∧
      l.checkpoint.At content request k
  lower : ∀ key, d₀.Stores C content request k none key → d.stores key
  upper : ∀ key, d.stores key → d₀.Stores C content request request.maxPages none key

end

section
variable {C : Contracts} {content : ChannelContent} {request : AcquisitionRequest} {d₀ d d₁ d₂ : Db}
  {k : Nat}

/-- before its first page. -/
theorem CutAt.start (hfirst : d₀.lease request.channelId request.runId = none) :
    CutAt C content request d₀ 0 d₀ where
  le := Nat.zero_le _
  rising j _ h := absurd h (Nat.not_lt_zero j)
  lease := .inl ⟨hfirst, rfl⟩
  lower key hk := hk.resolve_right fun ⟨p, hp, _⟩ => by cases hp
  upper key hk := .inl hk

/-- storing texts of the pages of the walk leaves a cut where it was. -/
theorem CutAt.stored (h : CutAt C content request d₀ k d) (hl : d₁.lease = d.lease)
    (hk : ∀ key, d.stores key → d₁.stores key)
    (hu : ∀ key, d₁.stores key → d₀.Stores C content request request.maxPages none key) :
    CutAt C content request d₀ k d₁ :=
  ⟨h.le, h.rising, hl ▸ h.lease, fun key hkey => hk key (h.lower key hkey), hu⟩

/-- where a walk that may be cut stands. -/
structure CutHead (C : Contracts) (content : ChannelContent) (request : AcquisitionRequest)
    (d₀ : Db) (n : Nat) (at_ : Cursor) (d : Db) : Prop where
  cut : CutAt C content request d₀ at_.pages d
  cursor : at_.before = content.scan request at_.pages none
  left : (0 < at_.pages ∧ n = 0) ∨
    (n = request.maxPages - at_.pages ∧ (at_.pages = 0 ∨ at_.before.isSome))

theorem CutHead.open {n : Nat} {at_ : Cursor} (h : CutHead C content request d₀ (n + 1) at_ d) :
    at_.pages + 1 ≤ request.maxPages ∧ n = request.maxPages - (at_.pages + 1) ∧
      (at_.pages = 0 ∨ (content.scan request at_.pages none).isSome) := by
  rcases h.left with ⟨-, hn⟩ | ⟨hn, hb⟩
  · omega
  · exact ⟨by omega, by omega, h.cursor ▸ hb⟩

/-- the keys of the next page are keys of the walk. -/
theorem CutHead.upper {n : Nat} {at_ : Cursor} {key : Uuid × Int × Digest}
    (h : CutHead C content request d₀ (n + 1) at_ d)
    (hk : d.stores key ∨ Wanted C request (content.below at_.before (min request.pageSize 100)) key) :
    d₀.Stores C content request request.maxPages none key := by
  obtain ⟨hle, -, hopen⟩ := h.open
  rcases hk with hk | ⟨p, hp, hw, rfl⟩
  · exact h.cut.upper key hk
  · rw [h.cursor] at hp
    exact .inr ⟨p, ChannelContent.readFrom_mono hle
      (((ChannelContent.scan_succ hopen).2 p).mpr (.inr hp)), hw, rfl⟩

/-- **Every cut of a first walk** leaves what `CutAt` says. -/
theorem cutWalk (hpages : 1 ≤ request.maxPages)
    (hfirst : d₀.lease request.channelId request.runId = none) :
    WalkProof C request (steady content) False (fun d => ∃ k, CutAt C content request d₀ k d)
      (fun d _ => d = d₀) (fun n at_ d _ => CutHead C content request d₀ n at_ d)
      (fun _ _ _ => True) (fun _ _ => True) where
  started := by
    rintro d x rfl
    exact ⟨0, .start hfirst⟩
  refused _ _ := trivial
  resumed := by
    rintro d x now at_ rfl hr
    rw [hfirst] at hr
    cases hr
    exact ⟨.start hfirst, rfl, .inr ⟨rfl, .inl rfl⟩⟩
  safe h := ⟨_, h.cut⟩
  lost _ _ := trivial
  resolved h _ := h
  missed _ _ := trivial
  waits _ _ _ _ hf := (steady_answers hf).elim
  down _ _ _ hf := (steady_answers hf).elim
  part := by
    rintro n at_ d x channel page x' d₁ h hpage hd₁
    cases hpage
    exact ⟨⟨_, h.cut.stored hd₁.lease (fun _ => hd₁.kept) fun key hk => h.upper (hd₁.wanted hk)⟩,
      fun _ => trivial⟩
  shown := by
    rintro n at_ d x channel page x' d₁ d₂ h hpage hd₁ hd₂
    cases hpage
    refine ⟨⟨_, h.cut.stored (hd₂.lease.trans hd₁.lease) (fun key hk => hd₂.stores (hd₁.kept hk))
      fun key hk => h.upper ((hd₁.stores_iff hd₂).mp hk)⟩, fun _ => trivial⟩
  next := by
    rintro n at_ d x channel page x' d₁ d₂ reached count holder now h hpage hd₁ hd₂ hr
    cases hpage
    rw [ChannelContent.after_eq hr]
    obtain ⟨hle, hn, hopen⟩ := h.open
    obtain ⟨hscan, hread⟩ := ChannelContent.scan_succ hopen
    have hcur : content.after request at_.before = content.scan request (at_.pages + 1) none := by
      rw [hscan, h.cursor]
    refine ⟨⟨hle, fun j hj hlt => ?_, .inr ⟨Nat.succ_pos _, _, d₂.lease_putLease _, rfl,
      hcur, .inl rfl⟩, fun key hk => ?_, fun key hk => h.upper ((hd₁.stores_iff hd₂).mp hk)⟩, hcur, ?_⟩
    · rcases Nat.lt_succ_iff_lt_or_eq.mp hlt with hlt | rfl
      · exact h.cut.rising j hj hlt
      · exact hopen.resolve_left (by omega)
    · refine (hd₁.stores_iff hd₂).mpr ?_
      rcases hk with hk | ⟨p, hp, hw, rfl⟩
      · exact .inl (h.cut.lower key (.inl hk))
      · rcases (hread p).mp hp with hp | hp
        · exact .inl (h.cut.lower _ (.inr ⟨p, hp, hw, rfl⟩))
        · exact .inr ⟨p, h.cursor ▸ hp, hw, rfl⟩
    · split_ifs with hb
      · exact .inl ⟨Nat.succ_pos _, rfl⟩
      · exact .inr ⟨hn, .inr (by simpa [Option.isSome_iff_ne_none] using hb)⟩
  finish := by
    rintro at_ d x holder now h
    have hpos : 0 < at_.pages := by
      rcases h.left with ⟨hpos, -⟩ | ⟨hn, -⟩
      · exact hpos
      · omega
    refine ⟨⟨at_.pages, h.cut.le, h.cut.rising, .inr ⟨hpos, _, d.lease_putLease _, rfl, h.cursor, ?_⟩,
      h.cut.lower, h.cut.upper⟩, trivial⟩
    rw [← h.cursor]
    cases hb : at_.before with
    | none => exact .inr (.inl ⟨by simp [checkpointLease], rfl⟩)
    | some b => exact .inr (.inr ⟨by simp [checkpointLease], rfl⟩)

/-! ## The repetition -/

/-- the last page was checkpointed but the walk was not, and the page limit lets a repetition read
some of its pages again but not all. -/
def Lease.Rereads (l : Lease) (maxPages : Nat) : Prop :=
  l.checkpoint.state = .pageCommitted ∧ l.checkpoint.beforeMessageId = none ∧
    l.checkpoint.pages < maxPages ∧ maxPages < 2 * l.checkpoint.pages

/-- what the repetition starts from, compared with the walk. -/
structure Resumption (C : Contracts) (content : ChannelContent) (request : AcquisitionRequest)
    (d₀ d : Db) (at_ : Cursor) : Prop where
  resumes : ∀ now, resumeFrom (d.lease request.channelId request.runId) request.maxPages now =
    .ok at_
  stores : ∀ key, d.Stores C content request (request.maxPages - at_.pages) at_.before key ↔
    d₀.Stores C content request request.maxPages none key
  flag : (content.scan request (request.maxPages - at_.pages) at_.before).isSome =
      (content.scan request request.maxPages none).isSome ↔
    ∀ l, d.lease request.channelId request.runId = some l → ¬ l.Rereads request.maxPages

/-- what a cut has stored, and what is still to be read, are what the walk stores. -/
theorem CutAt.stores {n : Nat} {before : Option Int} (h : CutAt C content request d₀ k d)
    (hup : ∀ p ∈ content.readFrom request n before,
      p ∈ content.readFrom request request.maxPages none)
    (hlow : ∀ p ∈ content.readFrom request request.maxPages none,
      p ∈ content.readFrom request k none ∨ p ∈ content.readFrom request n before)
    (key : Uuid × Int × Digest) :
    d.Stores C content request n before key ↔
      d₀.Stores C content request request.maxPages none key := by
  constructor
  · rintro (hk | ⟨p, hp, hw⟩)
    · exact h.upper key hk
    · exact .inr ⟨p, hup p hp, hw⟩
  · rintro (hk | ⟨p, hp, hw⟩)
    · exact .inl (h.lower key (.inl hk))
    · rcases hlow p hp with hp | hp
      · exact .inl (h.lower key (.inr ⟨p, hp, hw⟩))
      · exact .inr ⟨p, hp, hw⟩

/-- the cut lies before the last page: the repetition goes on at its cursor. -/
theorem CutAt.goesOn {c : Int} {l : Lease} (h : CutAt C content request d₀ k d)
    (hl : d.lease request.channelId request.runId = some l) (hc : content.scan request k none = some c)
    (hat : l.checkpoint.At content request k) :
    Resumption C content request d₀ d ⟨some c, k, l.checkpoint.revisions⟩ := by
  have hscan := ChannelContent.scan_add hc (request.maxPages - k)
  have hread := ChannelContent.readFrom_add hc (request.maxPages - k)
  rw [Nat.add_sub_cancel' h.le] at hscan hread
  refine ⟨fun now => ?_, h.stores (fun p hp => ?_) (fun p hp => ?_), iff_of_true ?_ ?_⟩
  · rw [hl, resumeFrom]
    rcases hat.state with hs | ⟨-, hn⟩ | ⟨hs, -⟩
    · simp [hs, hat.cursor, hat.pages, hc]
    · rw [hc] at hn
      cases hn
    · simp [hs, hat.cursor, hat.pages, hc]
  · rw [hread]
    exact List.mem_append_right _ hp
  · rw [hread] at hp
    exact List.mem_append.mp hp
  · exact congrArg Option.isSome hscan.symm
  · rintro l' hl' ⟨-, hn, -⟩
    rw [hl] at hl'
    cases hl'
    rw [hat.cursor, hc] at hn
    cases hn

/-- the cut lies behind the last page. -/
theorem CutAt.rereads {l : Lease} (h : CutAt C content request d₀ k d) (hk : 0 < k)
    (hl : d.lease request.channelId request.runId = some l) (hc : content.scan request k none = none)
    (hat : l.checkpoint.At content request k) :
    ∃ at_, Resumption C content request d₀ d at_ := by
  obtain ⟨hend, hread⟩ := ChannelContent.scan_done hk hc h.le
  rcases hat.state with hs | ⟨hs, -⟩ | ⟨-, hn⟩
  · refine ⟨⟨none, k, l.checkpoint.revisions⟩, fun now => ?_, h.stores (fun p hp => ?_)
      (fun p hp => ?_), ?_⟩
    · rw [hl, resumeFrom]
      simp [hs, hat.cursor, hat.pages, hc]
    · exact ChannelContent.readFrom_mono (Nat.sub_le _ _) hp
    · rw [hread] at hp
      exact .inl hp
    · -- the repetition reads from the top again, with the pages that are left.
      rw [hend]
      have hrereads : (∀ l', d.lease request.channelId request.runId = some l' →
          ¬ l'.Rereads request.maxPages) ↔ ¬ (k < request.maxPages ∧ request.maxPages < 2 * k) := by
        rw [hl]
        simp only [Option.some.injEq, forall_eq', Lease.Rereads, hs, hat.cursor, hc, hat.pages,
          true_and]
      rw [hrereads]
      dsimp only
      constructor
      · rintro hflag ⟨hlt, htwice⟩
        have hsome := h.rising (request.maxPages - k) (by omega) (by omega)
        rw [hflag] at hsome
        cases hsome
      · intro hn
        rcases Nat.lt_or_ge k request.maxPages with hlt | hge
        · exact congrArg Option.isSome
            (ChannelContent.scan_done hk hc (by omega : k ≤ request.maxPages - k)).1
        · rw [show request.maxPages - k = 0 by omega]
          rfl
  · refine ⟨⟨none, request.maxPages, l.checkpoint.revisions⟩, fun now => ?_, h.stores (fun p hp => ?_)
      (fun p hp => ?_), iff_of_true ?_ ?_⟩
    · rw [hl, resumeFrom]
      simp [hs]
    · exact ChannelContent.readFrom_mono (Nat.sub_le _ _) hp
    · rw [hread] at hp
      exact .inl hp
    · rw [hend, Nat.sub_self]
      rfl
    · rintro l' hl' ⟨hs', -⟩
      rw [hl] at hl'
      cases hl'
      rw [hs] at hs'
      cases hs'
  · rw [hc] at hn
    cases hn

/-- what the repetition starts from, wherever the walk was cut. -/
theorem CutAt.resumption (h : CutAt C content request d₀ k d) :
    ∃ at_, Resumption C content request d₀ d at_ := by
  rcases h.lease with ⟨hl, rfl⟩ | ⟨hk, l, hl, hat⟩
  · refine ⟨⟨none, 0, 0⟩, fun now => by rw [hl]; rfl, h.stores (fun p hp => hp) fun p hp => .inr hp,
      iff_of_true rfl fun l hl' => ?_⟩
    rw [hl] at hl'
    cases hl'
  · rcases hc : content.scan request k none with _ | c
    · exact h.rereads hk hl hc hat
    · exact ⟨_, h.goesOn hl hc hat⟩

end

/-- the repetition ends with the flag, the checkpoint state and the stored texts of the walk. -/
structure Repeats (request : AcquisitionRequest) (report : AcquisitionReport) (d' : Db)
    (r : Except AcquisitionError AcquisitionReport) (d'' : Db) : Prop where
  flag : r.map (·.isPartial) = .ok report.isPartial
  checkpoint : (d''.lease request.channelId request.runId).map (·.checkpoint.state) =
    (d'.lease request.channelId request.runId).map (·.checkpoint.state)
  stored : ∀ key, d''.stores key ↔ d'.stores key

/-- **A walk that is called again after a crash ends as the uninterrupted walk exactly when the
crash did not leave the last page checkpoint with a page limit that is more than the pages read but
less than twice as many.** -/
theorem restart_repeats_iff (C : Contracts) (content : ChannelContent)
    (request : AcquisitionRequest) (hpages : 1 ≤ request.maxPages)
    {d d' dc d'' : Db} {w w' wc w₁ w'' : World Unit} {report : AcquisitionReport}
    {p : Action AcquisitionError AcquisitionReport} {r : Except AcquisitionError AcquisitionReport}
    (hfirst : d.lease request.channelId request.runId = none)
    (hs : Supplied request False d w.used)
    (hwalk : Walks C (steady content) False request d w (.ok report) d' w')
    (hcut : Exec (S := service) Eq (World.answers (steady content) False)
      (execute C request, d, w) (p, dc, wc))
    (hs₁ : Supplied request False dc w₁.used)
    (hagain : Walks C (steady content) False request dc w₁ r d'' w'') :
    Repeats request report d' r d'' ↔
      ∀ l, dc.lease request.channelId request.runId = some l → ¬ l.Rereads request.maxPages := by
  have hname : publicUsername request.username = true := by
    rw [← Bool.not_eq_false]
    exact fun hname => unnamed_fails hname hwalk
  have hresume₀ : ∀ now, resumeFrom (d.lease request.channelId request.runId) request.maxPages now =
      .ok ⟨none, 0, 0⟩ := fun now => by rw [hfirst]; rfl
  obtain ⟨report₁, hr₁, hends⟩ := hwalk.ends hresume₀ hname hs
  cases hr₁
  obtain ⟨⟨k, hk⟩, -⟩ := Safe.cut (execute_proof (cutWalk hpages hfirst) hs rfl)
    ⟨0, .start hfirst⟩ hcut
  obtain ⟨at₁, hresume⟩ := hk.resumption
  obtain ⟨report₂, rfl, hends₂⟩ := hagain.ends hresume.resumes hname hs₁
  have hflag : report₂.isPartial = report.isPartial ↔
      ∀ l, dc.lease request.channelId request.runId = some l → ¬ l.Rereads request.maxPages := by
    rw [hends.flag, hends₂.flag]
    exact hresume.flag
  rw [← hflag]
  refine ⟨fun h => Except.ok.inj h.flag, fun h => ⟨congrArg Except.ok h, ?_, fun key => ?_⟩⟩
  · rw [hends₂.checkpoint, hends.checkpoint]
    unfold lastState
    rw [← hends₂.flag, h, hends.flag]
  · rw [hends₂.stored key, hends.stored key]
    exact hresume.stores key

/-! ## A sample -/

namespace Sample

/-- the channel holds two posts, the older one before the window. -/
def steadyChannel : ChannelContent :=
  ⟨[⟨5, "hello", 1000000⟩, ⟨4, "old", -1000000⟩], by simp [Falling]⟩

/-- a walk of at most three pages with one post each. -/
def shortWalk : AcquisitionRequest := ⟨50, 1, "rustlang", 0, 1000000000, 3, 1⟩

/-- the walk, -/
def wholeWalk : Action AcquisitionError AcquisitionReport × Db × World Unit :=
  journey 1000 100 (shows steadyChannel false) (fun _ => id) 40 (execute contracts shortWalk) known
    ⟨fun _ => False, ()⟩

/-- the walk cut after the checkpoint of its second page, -/
def cutShortWalk : Action AcquisitionError AcquisitionReport × Db × World Unit :=
  journey 1000 100 (shows steadyChannel false) (fun _ => id) 15 (execute contracts shortWalk) known
    ⟨fun _ => False, ()⟩

/-- the identity of the stored text is used. -/
def restarted : World Unit := ⟨fun u => u = Nat.pair 110 0, ()⟩

/-- and its repetition. -/
def secondWalk : Action AcquisitionError AcquisitionReport × Db × World Unit :=
  journey 1000 0 (shows steadyChannel false) (fun _ => id) 40 (execute contracts shortWalk)
    cutShortWalk.2.1 restarted

theorem shows_steady (q : Question) (x : Unit) :
    steady steadyChannel x q (shows steadyChannel false q) (id x) := by
  cases q with
  | resolve username => exact ⟨0, rfl⟩
  | fetch channel before limit => exact rfl
  | _ => exact trivial

theorem known_supplied (w : World Unit) : Supplied shortWalk False known w.used :=
  fun _ => ⟨fun r hr => (by cases hr), _, List.mem_singleton.mpr rfl, rfl⟩

theorem cut_supplied : Supplied shortWalk False cutShortWalk.2.1 restarted.used := by
  refine fun _ => ⟨fun r hr => ?_, ⟨1, "rustlang", none⟩, by decide +kernel, rfl⟩
  have hids : cutShortWalk.2.1.revisions.map (·.revisionId) = [Nat.pair 110 0] := by decide +kernel
  have hmem := List.mem_map_of_mem (f := (·.revisionId)) hr
  rw [hids] at hmem
  exact List.mem_singleton.mp hmem

theorem wholeWalk_answers : wholeWalk.1.answer? = some (.ok ⟨2, 1, false⟩) := by decide +kernel

theorem secondWalk_answers : secondWalk.1.answer? = some (.ok ⟨3, 2, true⟩) := by decide +kernel

theorem wholeWalk_exec : Exec (S := service) Eq (World.answers (steady steadyChannel) False)
    (execute contracts shortWalk, known, ⟨fun _ => False, ()⟩) wholeWalk :=
  (journey_exec shows_steady _ _ _ _ _ fun _ _ _ h => h).1

theorem cutShortWalk_exec : Exec (S := service) Eq (World.answers (steady steadyChannel) False)
    (execute contracts shortWalk, known, ⟨fun _ => False, ()⟩) cutShortWalk :=
  (journey_exec shows_steady _ _ _ _ _ fun _ _ _ h => h).1

theorem secondWalk_exec : Exec (S := service) Eq (World.answers (steady steadyChannel) False)
    (execute contracts shortWalk, cutShortWalk.2.1, restarted) secondWalk := by
  refine (journey_exec shows_steady _ _ _ _ _ fun j hj k hu => ?_).1
  have := (Nat.pair_eq_pair.mp hu).1
  omega

end Sample

/-- the walk reads its two pages; cut after their checkpoints it is left one page, and reads the
first page again. -/
theorem rereading_differs :
    Walks Sample.contracts (steady Sample.steadyChannel) False Sample.shortWalk Sample.known
      ⟨fun _ => False, ()⟩ (.ok ⟨2, 1, false⟩) Sample.wholeWalk.2.1 Sample.wholeWalk.2.2 ∧
    Exec (S := service) Eq (World.answers (steady Sample.steadyChannel) False)
      (execute Sample.contracts Sample.shortWalk, Sample.known, ⟨fun _ => False, ()⟩)
      Sample.cutShortWalk ∧
    Walks Sample.contracts (steady Sample.steadyChannel) False Sample.shortWalk
      Sample.cutShortWalk.2.1 Sample.restarted (.ok ⟨3, 2, true⟩) Sample.secondWalk.2.1
      Sample.secondWalk.2.2 ∧
    ¬ Repeats Sample.shortWalk ⟨2, 1, false⟩ Sample.wholeWalk.2.1 (.ok ⟨3, 2, true⟩)
      Sample.secondWalk.2.1 :=
  ⟨travel_runs Sample.wholeWalk_exec Sample.wholeWalk_answers, Sample.cutShortWalk_exec,
    travel_runs Sample.secondWalk_exec Sample.secondWalk_answers, fun h => by cases h.flag⟩

theorem secondWalk_repeats : Sample.secondWalk.1.answer? = some (.ok ⟨3, 2, true⟩) ∧
    (Repeats Sample.shortWalk ⟨2, 1, false⟩ Sample.wholeWalk.2.1 (.ok ⟨3, 2, true⟩)
      Sample.secondWalk.2.1 ↔
      ∀ l, Sample.cutShortWalk.2.1.lease 1 50 = some l → ¬ l.Rereads 3) :=
  ⟨Sample.secondWalk_answers, restart_repeats_iff _ _ Sample.shortWalk (by decide) rfl
    (Sample.known_supplied _) (travel_runs Sample.wholeWalk_exec Sample.wholeWalk_answers)
    Sample.cutShortWalk_exec Sample.cut_supplied
    (travel_runs Sample.secondWalk_exec Sample.secondWalk_answers)⟩

end ChannelDigests
