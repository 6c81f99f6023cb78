import ChannelDigests.Aside
import ChannelDigests.Boundary
import ChannelDigests.Catalogue

/-!
# Channels that were read

A run may take several ticks, and every tick calls `execute` for every channel again.  A call that
starts from a completed checkpoint reads no page, but it asks the provider to resolve the channel
first, and what the provider answers may undo the checkpoint.

* `Db.read`         the checkpoint of a channel in a run is completed;
* `Bystander`       what others do beside a tick;
* `Called`, `KeptCall`   a call, and one that resolves the channel if it was read;
* `Acquires`, `Ticks`    the calls of a tick, one for each listed channel;
* `tick_ticks`      every tick is made of such calls;
* `read_stays_read`  **a channel that was read stays read while its calls resolve it**.
-/

namespace ChannelDigests
open Lib Prog

/-- the checkpoint of the channel in this run is completed. -/
def Db.read (d : Db) (channelId runId : Uuid) : Prop :=
  ∃ l, d.lease channelId runId = some l ∧ l.checkpoint.state = .completed

/-- the others write no lease, and channels only come. -/
structure Bystander (d d' : Db) : Prop where
  leases : d'.leases = d.leases
  kept : ∀ c ∈ d.channels, c ∈ d'.channels
  unique : KeyUnique Channel.channelId d.channels → KeyUnique Channel.channelId d'.channels

theorem Bystander.refl (d : Db) : Bystander d d := ⟨rfl, fun _ => id, id⟩

theorem Bystander.trans {a b c : Db} (h : Bystander a b) (h' : Bystander b c) : Bystander a c :=
  ⟨h'.leases.trans h.leases, fun x hx => h'.kept x (h.kept x hx), fun hu => h'.unique (h.unique hu)⟩

theorem Aside.bystander {d d' : Db} (h : Aside d d') : Bystander d d' where
  leases := h.leases
  kept c hc := by rwa [h.channels]
  unique hu := by rwa [h.channels]

theorem bystander_overlooks (d : Db) : Overlooks (Bystander d) := fun h hd => hd.trans h.bystander

theorem bystander_tolerates (d : Db) : Tolerates (fun _ => True) (Bystander d) :=
  fun h _ hd => bystander_overlooks d h hd

/-- every change of the service but a checkpoint is one of a bystander. -/
theorem Change.bystander {C : Contracts} {K : Message → Prop} {w : Crew} {k : Kind} {d d' : Db}
    (h : Change C K w k d d') (hk : k ≠ .lease) : Bystander d d' where
  leases := h.frame .leases (by cases k <;> first | exact absurd rfl hk | decide)
  kept _ hc := h.channelsGrow.kept hc
  unique hu := h.channelsGrow.ids hu

/-- the steps of a call write the leases of its own channel and run only. -/
structure Untouched (request : AcquisitionRequest) (d d' : Db) : Prop where
  leases : ∀ channelId, channelId ≠ request.channelId →
    d'.lease channelId request.runId = d.lease channelId request.runId
  kept : ∀ c ∈ d.channels, c ∈ d'.channels
  unique : KeyUnique Channel.channelId d.channels → KeyUnique Channel.channelId d'.channels

theorem Untouched.refl (request : AcquisitionRequest) (d : Db) : Untouched request d d :=
  ⟨fun _ _ => rfl, fun _ => id, id⟩

/-- a checkpoint of one channel is none of another. -/
theorem Db.lease_putLease_ne (d : Db) (row : Lease) {channelId runId : Uuid}
    (hne : channelId ≠ row.channelId) : (d.putLease row).lease channelId runId =
      d.lease channelId runId := by
  unfold Db.putLease Db.lease
  dsimp only
  have other : ∀ l : Lease, l.channelId = row.channelId →
      (decide (l.channelId = channelId) && decide (l.runId = runId)) = false := by
    intro l hl
    rw [hl, decide_eq_false hne.symm, Bool.false_and]
  split_ifs
  · refine find?_updateWhere_of_not fun l hl => ?_
    rw [Bool.and_eq_true, decide_eq_true_eq] at hl
    exact ⟨other l hl.1, other row rfl⟩
  · rw [List.find?_append, List.find?_singleton, other row rfl, if_neg Bool.false_ne_true,
      Option.or_none]

/-! ## Calls -/

/-- any answer. -/
def anyAnswer : Unit → (q : Question) → q.Answer → Unit → Prop := fun _ _ _ _ => True

/-- the channel is resolved, and no statement is lost. -/
def resolving : Unit → (q : Question) → q.Answer → Unit → Prop
  | _, .moment, m, _ => m.fuse = none
  | _, .resolve _, reply, _ => ∃ channel, reply = .ok channel
  | _, _, _, _ => True

/-- a call of `execute` beside others. -/
abbrev Called (C : Contracts) (env : Unit → (q : Question) → q.Answer → Unit → Prop)
    (request : AcquisitionRequest) (d : Db) (r : Except AcquisitionError AcquisitionReport)
    (d' : Db) : Prop :=
  Runs (S := service) Bystander env (execute C request) d () r d' ()

section
variable {C : Contracts} {env : Unit → (q : Question) → q.Answer → Unit → Prop}
  {request : AcquisitionRequest} {r : Except AcquisitionError AcquisitionReport} {d d' : Db}

theorem beside (env : Unit → (q : Question) → q.Answer → Unit → Prop) :
    Surrounds Bystander env True :=
  ⟨Bystander.refl, Bystander.trans, fun _ _ _ _ _ => trivial⟩

theorem beside_resolving : Surrounds Bystander resolving False :=
  ⟨Bystander.refl, Bystander.trans, fun _ _ _ hm hf => hf hm⟩

theorem Bystander.lease (h : Bystander d d') : d'.lease = d.lease := by
  funext channelId runId
  unfold Db.lease
  rw [h.leases]

theorem Bystander.read (h : Bystander d d') {channelId runId : Uuid} :
    d'.read channelId runId ↔ d.read channelId runId := by
  unfold Db.read
  rw [h.lease]

theorem Untouched.other {d₁ d₂ : Db} (h : Untouched request d d₁) (ho : Bystander d₁ d₂) :
    Untouched request d d₂ where
  leases channelId hne := by
    rw [ho.lease]
    exact h.leases channelId hne
  kept c hc := ho.kept c (h.kept c hc)
  unique hu := ho.unique (h.unique hu)

/-- one step of a call spares the leases of the other channels. -/
theorem CallStep.spares {d₁ d₂ : Db} (hs : CallStep C request d₁ d₂) (h : Untouched request d d₁) :
    Untouched request d d₂ := by
  cases hs with
  | lease at_ state wait holder now =>
    refine ⟨fun channelId hne => ?_, h.kept, h.unique⟩
    rw [Db.lease_putLease_ne d₁ (checkpointLease request at_ state wait holder now) hne]
    exact h.leases channelId hne
  | append post published revisionId _ ha =>
    rcases appendRevision_some ha with ⟨rfl, -⟩ | ⟨rfl, -⟩
    · exact h
    · exact ⟨h.leases, h.kept, h.unique⟩
  | withdrawal g now => exact ⟨h.leases, h.kept, h.unique⟩

/-- a call that is safe ends in its post-condition, up to what the others did since. -/
theorem called_ends {H : Db → Db → Prop}
    {Q : Except AcquisitionError AcquisitionReport → Db → Prop}
    (hs : Safe (S := service) Bystander env (always H) (execute C request) (fun r s _ => Q r s) d ())
    (h : Called C env request d r d') : ∃ s, Bystander s d' ∧ Q r s :=
  Safe.runs (S := service) (R := Bystander) (Q := fun r s _ => Q r s) Bystander.refl
    Bystander.trans hs h

/-- **A call spares the leases of the other channels.** -/
theorem Called.spares (h : Called C env request d r d') : Untouched request d d' := by
  have w : CallRule C request Bystander (fun _ _ => True) env True (Untouched request d) :=
    ⟨beside env, fun ho h => h.other ho, fun _ => trivial, fun h hs => ⟨trivial, hs.spares h⟩⟩
  obtain ⟨s, ho, hs⟩ := called_ends (call_keeps w (.refl request d)) h
  exact hs.other ho

/-- the lease is read before anything else. -/
theorem resume_safe {faulty : Prop} (w : Surrounds Bystander env faulty)
    {Q : Except AcquisitionError Cursor → Db → Prop}
    (hE : faulty → ∀ s, Bystander d s → Q (.error .unavailable) s)
    (h : ∀ s now, Bystander d s →
      Q (resumeFrom (s.lease request.channelId request.runId) request.maxPages now) s) :
    Safe (S := service) Bystander env (always fun _ _ => True) (resume request)
      (fun r s _ => Q r s) d () := by
  unfold resume
  refine safe_read w (fun s hs hf => ⟨trivial, fun _ => hE hf s hs⟩) fun m s e _ hs => ⟨trivial, ?_⟩
  exact h s m.now hs

/-- a call for a channel without an acceptable name writes no lease. -/
theorem Called.unnamed (hname : publicUsername request.username = false)
    (h : Called C env request d r d') : d'.lease = d.lease := by
  have hsafe : Safe (S := service) Bystander env (always fun _ _ => True) (execute C request)
      (fun _ s _ => s.lease = d.lease) d () := by
    unfold execute
    refine (safe_bind (S := service) _ _ _).mpr (Safe.imp (fun r s _ hs => ?_)
      (resume_safe (Q := fun _ s => s.lease = d.lease) (beside env) (fun _ s hs => hs.lease)
        fun s _ hs => hs.lease))
    cases r with
    | error x => exact hs
    | ok at_ =>
      dsimp only
      rw [hname, Bool.not_false, if_pos rfl]
      exact hs
  obtain ⟨s, ho, hs⟩ := called_ends hsafe h
  exact ho.lease.trans hs

/-- a completed checkpoint leaves no page to read. -/
theorem Db.read.resumes (h : d.read request.channelId request.runId) (now : Instant) :
    ∃ revisions, resumeFrom (d.lease request.channelId request.runId) request.maxPages now =
      .ok ⟨none, request.maxPages, revisions⟩ := by
  obtain ⟨l, hl, hc⟩ := h
  refine ⟨l.checkpoint.revisions, ?_⟩
  rw [hl]
  unfold resumeFrom
  dsimp only
  rw [hc, if_neg (by rintro ⟨hf, -⟩; cases hf), if_pos rfl]

/-- the call reports that it read the channel to the end of the window. -/
def ReadsAll (r : Except AcquisitionError AcquisitionReport) : Prop :=
  ∃ report, r = .ok report ∧ report.isPartial = false

/-- **A call for a channel that was read reads it again** when the channel is resolved. -/
theorem Called.rereads (h : Called C resolving request d r d')
    (hname : publicUsername request.username = true)
    (hread : d.read request.channelId request.runId) :
    ReadsAll r ∧ d'.read request.channelId request.runId := by
  have hsafe : Safe (S := service) Bystander resolving (always fun _ _ => True) (execute C request)
      (fun r s _ => ReadsAll r ∧ s.read request.channelId request.runId) d () := by
    unfold execute
    refine (safe_bind (S := service) _ _ _).mpr (Safe.imp (fun r s _ hr => ?_)
      (resume_safe (Q := fun r s => ∃ revisions, r = .ok ⟨none, request.maxPages, revisions⟩)
        beside_resolving (fun hf => hf.elim) fun s now hs => (hs.read.mpr hread).resumes now))
    obtain ⟨revisions, rfl⟩ := hr
    dsimp only
    rw [hname, Bool.not_true, if_neg Bool.false_ne_true, Nat.sub_self]
    refine (safe_bind (S := service) _ _ _).mpr ?_
    unfold resolve
    refine (safe_bind (S := service) _ _ _).mpr fun s₁ hs₁ reply _ hreply => ?_
    obtain ⟨channel, rfl⟩ : ∃ channel, reply = .ok channel := hreply
    dsimp only
    -- no page is left: the walk leaves the completed checkpoint again.
    refine (safe_bind (S := service) _ _ _).mpr (safe_change beside_resolving
      (fun _ _ hf => hf.elim) fun m s₂ _ _ hs₂ => ⟨trivial, ⟨_, rfl, rfl⟩, ?_⟩)
    exact ⟨_, s₂.lease_putLease _, rfl⟩
  obtain ⟨s, ho, hr, hs⟩ := called_ends hsafe h
  exact ⟨hr, ho.read.mpr hs⟩

/-- the channel is not resolved. -/
def refusing : Unit → (q : Question) → q.Answer → Unit → Prop
  | _, .resolve _, reply, _ => ∀ channel, reply ≠ .ok channel
  | _, _, _, _ => True

/-- the condition is needed: no call reads a channel that is not resolved. -/
theorem Called.forgets (h : Called C refusing request d r d') : ¬ ReadsAll r := by
  have hsafe : Safe (S := service) Bystander refusing (always fun _ _ => True) (execute C request)
      (fun r _ _ => ∃ x, r = .error x) d () := by
    unfold execute
    refine (safe_bind (S := service) _ _ _).mpr (Safe.imp (fun r s _ _ => ?_)
      (safe_trivial (S := service) (resume request) d ()))
    cases r with
    | error x => exact ⟨x, rfl⟩
    | ok at_ =>
      refine (safe_ite (S := service) _ _ _ _).mpr ⟨fun _ => ⟨_, rfl⟩, fun _ => ?_⟩
      refine (safe_bind (S := service) _ _ _).mpr ?_
      unfold resolve
      refine (safe_bind (S := service) _ _ _).mpr fun s₁ _ reply _ hreply => ?_
      have hno : ∀ channel, reply ≠ .ok channel := hreply
      cases reply with
      | ok channel => exact absurd rfl (hno channel)
      | elapsed => exact ⟨_, rfl⟩
      | error x =>
        cases x with
        | floodWait wait =>
          refine (safe_bind (S := service) _ _ _).mpr (Safe.imp (fun r s _ _ => ?_)
            (safe_trivial (S := service) (checkpoint request at_ .floodWait (some wait)) s₁ ()))
          cases r with
          | error x => exact ⟨x, rfl⟩
          | ok _ => exact ⟨_, rfl⟩
        | _ => exact ⟨_, rfl⟩
  obtain ⟨s, -, x, rfl⟩ := called_ends hsafe h
  rintro ⟨report, hr, -⟩
  cases hr

end

/-! ## Runs of calls -/

/-- one call as a property of its request, its states and its outcome. -/
abbrev CallProp := AcquisitionRequest → Db → Except AcquisitionError AcquisitionReport → Db → Prop

/-- a call; when it starts from a completed checkpoint its channel is resolved and none of its
statements is lost. -/
structure KeptCall (C : Contracts) (request : AcquisitionRequest) (d : Db)
    (r : Except AcquisitionError AcquisitionReport) (d' : Db) : Prop where
  called : Called C anyAnswer request d r d'
  resolved : d.read request.channelId request.runId → Called C resolving request d r d'

/-- the request names a channel as it is stored. -/
def Db.names (d : Db) (request : AcquisitionRequest) : Prop :=
  ∃ c ∈ d.channels, c.channelId = request.channelId ∧ c.username = request.username

/-- any number of calls of one run, with what others do beside them. -/
inductive Onward (P : CallProp) (runId : Uuid) : Db → Db → Prop where
  | refl {d} : Onward P runId d d
  | other {d d₁ d₂} : Onward P runId d d₁ → Bystander d₁ d₂ → Onward P runId d d₂
  | call {d d₁ d₂ request r} : Onward P runId d d₁ → request.runId = runId → d₁.names request →
      P request d₁ r d₂ → Onward P runId d d₂

/-- the calls of a tick, one after the other. -/
inductive Acquires (P : CallProp) (run : PendingRun) :
    List (Uuid × String) → Db → Outcomes → Db → Prop where
  | nil {d d'} : Bystander d d' → Acquires P run [] d [] d'
  | cons {channel channels d d₁ d' r outcomes} : P (run.request channel) d r d₁ →
      Acquires P run channels d₁ outcomes d' →
      Acquires P run (channel :: channels) d ((channel.1, r) :: outcomes) d'

/-- a tick that lists the channels of its run and calls for each of them. -/
structure Ticks (P : CallProp) (run : PendingRun) (listed : Db) (outcomes : Outcomes) (d d' : Db) :
    Prop where
  lists : Bystander d listed
  calls : ∃ d₁, Acquires P run (listed.subscribedChannels run.ownerId) listed outcomes d₁ ∧
    Bystander d₁ d'

/-- the tick did not fail the run, and did not treat the channel as deferred, unavailable or partly
read. -/
structure StaysRead (channelId : Uuid) (run : PendingRun) (listed : Db) (outcomes : Outcomes)
    (d' : Db) : Prop where
  checkpoint : d'.read channelId run.runId
  outcome : ∀ r, (channelId, r) ∈ outcomes → ReadsAll r
  run : acquired outcomes = .unavailable →
    ∀ channel ∈ listed.subscribedChannels run.ownerId, channel.1 ≠ channelId

/-- the channels that were read have an acceptable name. -/
structure Named (runId : Uuid) (d : Db) : Prop where
  unique : KeyUnique Channel.channelId d.channels
  named : ∀ channelId, d.read channelId runId →
    ∃ c ∈ d.channels, c.channelId = channelId ∧ publicUsername c.username = true

section
variable {C : Contracts} {runId : Uuid} {d d₁ d₂ : Db} {request : AcquisitionRequest}
  {r : Except AcquisitionError AcquisitionReport}

theorem Named.other (h : Named runId d) (ho : Bystander d d₁) : Named runId d₁ where
  unique := ho.unique h.unique
  named channelId hr := by
    obtain ⟨c, hc, h1, h2⟩ := h.named channelId (ho.read.mp hr)
    exact ⟨c, ho.kept c hc, h1, h2⟩

theorem Db.names.kept (h : d.names request) (hk : ∀ c ∈ d.channels, c ∈ d₁.channels) :
    d₁.names request := by
  obtain ⟨c, hc, h1, h2⟩ := h
  exact ⟨c, hk c hc, h1, h2⟩

/-- the name of a channel that was read is acceptable in every call for it. -/
theorem Named.public (h : Named request.runId d) (hn : d.names request)
    (hr : d.read request.channelId request.runId) : publicUsername request.username = true := by
  obtain ⟨c, hc, h1, h2⟩ := h.named _ hr
  obtain ⟨o, ho, h3, h4⟩ := hn
  rwa [← h4, h.unique.eq ho hc (h3.trans h1.symm)]

theorem Untouched.read (h : Untouched request d d₁) {channelId : Uuid} (hne : channelId ≠ request.channelId) :
    d₁.read channelId request.runId ↔ d.read channelId request.runId := by
  unfold Db.read
  rw [h.leases channelId hne]

/-- a call keeps the names. -/
theorem Named.call (h : Named request.runId d) (hn : d.names request) (hc : KeptCall C request d r d₁) :
    Named request.runId d₁ where
  unique := hc.called.spares.unique h.unique
  named channelId hr := by
    have hs := hc.called.spares
    by_cases hid : channelId = request.channelId
    · subst hid
      obtain ⟨c, hmem, h1, h2⟩ := hn
      refine ⟨c, hs.kept c hmem, h1, ?_⟩
      rw [h2]
      by_contra hname
      -- without an acceptable name the checkpoint is the one from before the call.
      have hl := hc.called.unnamed (Bool.not_eq_true _ |>.mp hname)
      have hread : d.read request.channelId request.runId := by
        unfold Db.read at hr ⊢
        rwa [hl] at hr
      exact hname (h.public ⟨c, hmem, h1, h2⟩ hread)
    · obtain ⟨c, hmem, h1, h2⟩ := h.named channelId ((hs.read hid).mp hr)
      exact ⟨c, hs.kept c hmem, h1, h2⟩

/-- **One call keeps what was read**: its own channel, and every other one. -/
theorem KeptCall.read (hc : KeptCall C request d r d₁) (h : Named request.runId d)
    (hn : d.names request) {channelId : Uuid} (hr : d.read channelId request.runId) :
    d₁.read channelId request.runId ∧ (channelId = request.channelId → ReadsAll r) := by
  by_cases hid : channelId = request.channelId
  · subst hid
    obtain ⟨hall, hread⟩ := (hc.resolved hr).rereads (h.public hn hr) hr
    exact ⟨hread, fun _ => hall⟩
  · exact ⟨(hc.called.spares.read hid).mpr hr, fun he => absurd he hid⟩

theorem Onward.named (h : Onward (KeptCall C) runId d d₁) (hd : Named runId d) : Named runId d₁ := by
  induction h with
  | refl => exact hd
  | other _ ho ih => exact ih.other ho
  | call _ hrun hn hc ih =>
    subst hrun
    exact ih.call hn hc

/-- the calls of a tick keep what was read, one after the other. -/
theorem Acquires.read {run : PendingRun} {channels : List (Uuid × String)} {outcomes : Outcomes}
    (h : Acquires (KeptCall C) run channels d outcomes d₁) (hd : Named run.runId d)
    (hn : ∀ channel ∈ channels, d.names (run.request channel)) {channelId : Uuid}
    (hr : d.read channelId run.runId) :
    d₁.read channelId run.runId ∧ (∀ r, (channelId, r) ∈ outcomes → ReadsAll r) ∧
      outcomes.map (·.1) = channels.map (·.1) := by
  induction h with
  | nil ho => exact ⟨ho.read.mpr hr, fun r hr => (by cases hr), rfl⟩
  | @cons channel channels d d₁ d' r outcomes hc _ ih =>
    have hname := hn channel List.mem_cons_self
    have hspare := hc.called.spares
    obtain ⟨hr₁, hall⟩ := hc.read hd hname hr
    obtain ⟨hr', hrest, hchannels⟩ := ih (hd.call hname hc)
      (fun c hmem => (hn c (List.mem_cons_of_mem _ hmem)).kept hspare.kept) hr₁
    refine ⟨hr', fun r' hmem => ?_, by rw [List.map_cons, List.map_cons, hchannels]⟩
    rcases List.mem_cons.mp hmem with he | hmem
    · cases he
      exact hall rfl
    · exact hrest r' hmem

/-- a listed channel is stored as it is listed. -/
theorem mem_subscribedChannels {ownerId : Uuid} {channel : Uuid × String}
    (h : channel ∈ d.subscribedChannels ownerId) :
    ∃ c ∈ d.channels, c.channelId = channel.1 ∧ c.username = channel.2 := by
  unfold Db.subscribedChannels at h
  obtain ⟨c, hc, rfl⟩ := List.mem_map.mp h
  have hc := (List.perm_insertionSort _ _).mem_iff.mp (List.mem_of_mem_take hc)
  obtain ⟨s, -, hs⟩ := List.mem_filterMap.mp hc
  exact ⟨c, List.mem_of_find?_eq_some hs, rfl, rfl⟩

end

/-- the calls of a tick, as calls of its run. -/
theorem Acquires.onward {P : CallProp} (hP : ∀ {request d r d'}, P request d r d' →
      ∀ c ∈ d.channels, c ∈ d'.channels) {run : PendingRun} {channels : List (Uuid × String)}
    {outcomes : Outcomes} {d₀ d d' : Db} (h : Acquires P run channels d outcomes d')
    (hn : ∀ channel ∈ channels, d.names (run.request channel)) (h₀ : Onward P run.runId d₀ d) :
    Onward P run.runId d₀ d' := by
  induction h with
  | nil ho => exact h₀.other ho
  | cons hc _ ih =>
    exact ih (fun c hmem => (hn c (List.mem_cons_of_mem _ hmem)).kept (hP hc))
      (h₀.call rfl (hn _ List.mem_cons_self) hc)

/-- ticks in a row are calls in a row. -/
theorem Ticks.onward {P : CallProp} (hP : ∀ {request d r d'}, P request d r d' →
      ∀ c ∈ d.channels, c ∈ d'.channels) {run : PendingRun} {listed d₀ d d' : Db}
    {outcomes : Outcomes} (h : Ticks P run listed outcomes d d') (h₀ : Onward P run.runId d₀ d) :
    Onward P run.runId d₀ d' := by
  obtain ⟨hlists, d₁, hcalls, hrest⟩ := h
  exact (hcalls.onward hP (fun channel hc => mem_subscribedChannels hc) (h₀.other hlists)).other hrest

/-! ## Ticks -/

/-- what a tick walked: its run, where it listed the channels, and how each call ended. -/
def Tick.walks : Tick → Option (PendingRun × Db × Outcomes)
  | .deferred run listed outcomes => some (run, listed, outcomes)
  | .unavailable run listed outcomes => some (run, listed, outcomes)
  | .proceeded run listed outcomes _ => some (run, listed, outcomes)
  | _ => none

/-- the tick failed its run for want of a channel that was read. -/
def Tick.isUnavailable : Tick → Bool
  | .unavailable _ _ _ => true
  | _ => false

section
variable {C : Contracts} {d d' : Db}

/-- a program that writes no lease and no channel is a bystander. -/
theorem keeps_runs {ε α : Type} {p : Action ε α} {r : Except ε α} (hp : p.Keeps (Bystander d))
    (h : Runs (S := service) Bystander anyAnswer p d () r d' ()) : Bystander d d' :=
  (hp.exec (fun ho hd => hd.trans ho) (.refl d) h).1

/-- what others do before a call is beside it. -/
theorem Acquires.after {run : PendingRun} {channels : List (Uuid × String)} {outcomes : Outcomes}
    {d₀ : Db} (h : Acquires (Called C anyAnswer) run channels d outcomes d') (ho : Bystander d₀ d) :
    Acquires (Called C anyAnswer) run channels d₀ outcomes d' := by
  cases h with
  | nil hd => exact .nil (ho.trans hd)
  | cons hc hrest => exact .cons ((Exec.other .refl ho).trans hc) hrest

theorem Acquires.before {P : CallProp} {run : PendingRun} {channels : List (Uuid × String)}
    {outcomes : Outcomes} {d'' : Db} (h : Acquires P run channels d outcomes d')
    (ho : Bystander d' d'') : Acquires P run channels d outcomes d'' := by
  induction h with
  | nil hd => exact .nil (hd.trans ho)
  | cons hc _ ih => exact .cons hc (ih ho)

/-- the walks of a tick are calls, one for each channel. -/
theorem acquire_acquires {run : PendingRun} (channels : List (Uuid × String))
    {r : Except RunExecutionError Outcomes}
    (h : Runs (S := service) Bystander anyAnswer (acquire C run channels) d () r d' ()) :
    ∃ outcomes, r = .ok outcomes ∧ Acquires (Called C anyAnswer) run channels d outcomes d' := by
  induction channels generalizing d d' r with
  | nil =>
    refine ⟨[], (Runs.of_done h).1, .nil (keeps_runs (Prog.keeps_pure _) h)⟩
  | cons channel channels ih =>
    unfold acquire at h
    obtain ⟨r₁, s₁, _, hcall, hrest⟩ := Runs.of_bind h
    obtain ⟨r₂, s₂, _, hexec, hdone⟩ := Runs.of_next hcall
    have hr₁ : r₁ = .ok r₂ := (Runs.of_done hdone).1
    subst hr₁
    have hbeside : Bystander s₂ s₁ := keeps_runs (Prog.keeps_done _) hdone
    obtain ⟨r₃, s₃, _, hacquire, hpure⟩ := Runs.of_bind hrest
    obtain ⟨outcomes, rfl, hcalls⟩ := ih hacquire
    refine ⟨(channel.1, r₂) :: outcomes, (Runs.of_done hpure).1, .cons hexec ?_⟩
    exact (hcalls.after hbeside).before (keeps_runs (Prog.keeps_pure _) hpure)

/-- the channels are listed at one moment. -/
theorem subscribedChannels_lists {ownerId : Uuid} {r : Except RunExecutionError (Db × List (Uuid × String))}
    (h : Runs (S := service) Bystander anyAnswer (subscribedChannels ownerId) d () r d' ())
    {listed : Db} {channels : List (Uuid × String)} (hr : r = .ok (listed, channels)) :
    channels = listed.subscribedChannels ownerId ∧ Bystander d listed ∧ Bystander listed d' := by
  have hsafe : Safe (S := service) Bystander anyAnswer (always fun _ _ => True)
      (subscribedChannels ownerId) (fun r s _ => Bystander d s ∧ ∀ listed channels,
        r = .ok (listed, channels) → channels = listed.subscribedChannels ownerId ∧ listed = s)
      d () := by
    refine safe_change (f := fun _ d => d) (beside anyAnswer) (fun s hs _ => ⟨trivial, fun _ => ⟨hs, ?_⟩⟩)
      fun _ s _ _ hs => ⟨trivial, hs, ?_⟩
    · exact fun _ _ he => by cases he
    · rintro _ _ ⟨⟩
      exact ⟨rfl, rfl⟩
  obtain ⟨s, ho, hs, hq⟩ := Safe.runs (S := service) (R := Bystander) Bystander.refl
    (fun hab hbc => Bystander.trans hab hbc) hsafe h
  obtain ⟨hc, rfl⟩ := hq _ _ hr
  exact ⟨hc, hs, ho⟩

/-- what is left of a tick after its walks answers what the walks were. -/
theorem walked_tick {sourceCount : Nat} {run : PendingRun} {listed : Db} {outcomes : Outcomes}
    {r : Except RunExecutionError Tick}
    (h : Runs (S := service) Bystander anyAnswer (match acquired outcomes with
      | .deferred => pure (.deferred run listed outcomes)
      | .unavailable => failWith C run .providerUnavailable >>= fun _ =>
          pure (.unavailable run listed outcomes)
      | _ => proceed C sourceCount run listed outcomes) d () r d' ()) :
    Bystander d d' ∧ ∀ t, r = .ok t → t.walks = some (run, listed, outcomes) ∧
      (t.isUnavailable = true → acquired outcomes = .unavailable) := by
  have hproceed : ∀ {d d' : Db}, Runs (S := service) Bystander anyAnswer
      (proceed C sourceCount run listed outcomes) d () r d' () → Bystander d d' ∧ ∀ t, r = .ok t →
        t.walks = some (run, listed, outcomes) ∧ t.isUnavailable = false := by
    intro d d' h
    refine ⟨keeps_runs (proceed_aside (bystander_tolerates _) (fun _ => trivial) _ _ _ _) h, ?_⟩
    rintro t rfl
    unfold proceed at h
    obtain ⟨r₁, s₁, _, -, h⟩ := Runs.of_bind h
    rcases r₁ with x | ⟨seen, selection⟩
    · cases (Runs.of_done h).1
    obtain ⟨r₂, s₂, _, -, h⟩ := Runs.of_bind h
    rcases r₂ with x | _
    · cases (Runs.of_done h).1
    obtain ⟨r₃, s₃, _, -, h⟩ := Runs.of_bind h
    rcases r₃ with x | _
    · cases (Runs.of_done h).1
    · cases (Runs.of_done h).1
      exact ⟨rfl, rfl⟩
  rcases hacq : acquired outcomes with _ | _ | _ | _
  · rw [hacq] at h
    obtain ⟨hb, ht⟩ := hproceed h
    exact ⟨hb, fun t hr => ⟨(ht t hr).1, fun hu => by rw [(ht t hr).2] at hu; cases hu⟩⟩
  · rw [hacq] at h
    obtain ⟨hb, ht⟩ := hproceed h
    exact ⟨hb, fun t hr => ⟨(ht t hr).1, fun hu => by rw [(ht t hr).2] at hu; cases hu⟩⟩
  · rw [hacq] at h
    refine ⟨keeps_runs (Prog.keeps_pure _) h, ?_⟩
    rintro t rfl
    cases (Runs.of_done h).1
    exact ⟨rfl, fun hu => by cases hu⟩
  · rw [hacq] at h
    refine ⟨keeps_runs ((failWith_aside (bystander_tolerates _) _ trivial).bind fun _ =>
      Prog.keeps_pure _) h, ?_⟩
    rintro t rfl
    obtain ⟨r₁, s₁, _, -, h⟩ := Runs.of_bind h
    rcases r₁ with x | _
    · cases (Runs.of_done h).1
    · cases (Runs.of_done h).1
      exact ⟨rfl, fun _ => rfl⟩

theorem acquireRun_ticks {sourceCount : Nat} {run run' : PendingRun} {t : Tick} {listed : Db}
    {outcomes : Outcomes}
    (h : Runs (S := service) Bystander anyAnswer (acquireRun C sourceCount run) d () (.ok t) d' ())
    (hw : t.walks = some (run', listed, outcomes)) :
    Ticks (Called C anyAnswer) run' listed outcomes d d' ∧
      (t.isUnavailable = true → acquired outcomes = .unavailable) := by
  unfold acquireRun at h
  obtain ⟨r₁, s₁, _, hlist, h⟩ := Runs.of_bind h
  rcases r₁ with x | ⟨listed', channels⟩
  · cases (Runs.of_done h).1
  obtain ⟨rfl, hd, hs₁⟩ := subscribedChannels_lists hlist rfl
  obtain ⟨r₂, s₂, _, hacquire, h⟩ := Runs.of_bind h
  obtain ⟨outcomes', rfl, hcalls⟩ := acquire_acquires _ hacquire
  obtain ⟨hrest, ht⟩ := walked_tick h
  obtain ⟨hwalks, hun⟩ := ht t rfl
  rw [hw] at hwalks
  cases hwalks
  exact ⟨⟨hd, s₂, hcalls.after hs₁, hrest⟩, hun⟩

/-- **Every tick that walks is made of calls**, whatever is answered and whatever others do. -/
theorem tick_ticks {sourceCount : Nat} {run : PendingRun} {t : Tick} {listed : Db}
    {outcomes : Outcomes}
    (h : Runs (S := service) Bystander anyAnswer (tick C sourceCount) d () (.ok t) d' ())
    (hw : t.walks = some (run, listed, outcomes)) :
    Ticks (Called C anyAnswer) run listed outcomes d d' ∧
      (t.isUnavailable = true → acquired outcomes = .unavailable) := by
  have before : ∀ {s : Db}, Bystander d s →
      Ticks (Called C anyAnswer) run listed outcomes s d' ∧
        (t.isUnavailable = true → acquired outcomes = .unavailable) →
      Ticks (Called C anyAnswer) run listed outcomes d d' ∧
        (t.isUnavailable = true → acquired outcomes = .unavailable) :=
    fun ho ht => ⟨⟨ho.trans ht.1.lists, ht.1.calls⟩, ht.2⟩
  unfold tick at h
  obtain ⟨r₁, s₁, _, hpick, h⟩ := Runs.of_bind h
  have hs₁ : Bystander d s₁ :=
    keeps_runs (keeps_statement fun _ => Tx.keeps_read _ _) hpick
  rcases r₁ with x | _ | run'
  · cases (Runs.of_done h).1
  · cases (Runs.of_done h).1
    cases hw
  dsimp only at h
  split_ifs at h with hstate
  · obtain ⟨r₂, s₂, _, hbegin, h⟩ := Runs.of_bind h
    have hs₂ : Bystander s₁ s₂ :=
      keeps_runs (beginAcquisition_aside (bystander_tolerates _) _) hbegin
    rcases r₂ with x | b
    · cases (Runs.of_done h).1
    cases b with
    | true => exact before (hs₁.trans hs₂) (acquireRun_ticks h hw)
    | false =>
      cases (Runs.of_done h).1
      cases hw
  · exact before hs₁ (acquireRun_ticks h hw)

end

/-- **A channel that was read stays read.**  In a run whose calls resolve the channels that were
read, and lose no statement of these calls, a completed checkpoint stays completed, no later tick
treats the channel as deferred, unavailable or partly read, and no tick fails the run for want of a
channel that was read while the channel is listed. -/
theorem read_stays_read (C : Contracts) {run : PendingRun} {d₀ d d' listed : Db} {outcomes : Outcomes}
    (hkeys : KeyUnique Channel.channelId d₀.channels)
    (hfirst : ∀ channelId, ¬ d₀.read channelId run.runId)
    (hpast : Onward (KeptCall C) run.runId d₀ d)
    (htick : Ticks (KeptCall C) run listed outcomes d d') {channelId : Uuid}
    (hread : d.read channelId run.runId) : StaysRead channelId run listed outcomes d' := by
  have hnamed : Named run.runId d :=
    hpast.named ⟨hkeys, fun channelId hr => absurd hr (hfirst channelId)⟩
  obtain ⟨hlisted, d₁, hcalls, hrest⟩ := htick
  obtain ⟨hr, hall, hchannels⟩ := hcalls.read (hnamed.other hlisted)
    (fun channel hc => mem_subscribedChannels hc) (hlisted.read.mpr hread)
  refine ⟨hrest.read.mpr hr, hall, fun hun channel hc hid => ?_⟩
  -- a listed channel that was read is a successful one.
  have hmem : channel.1 ∈ outcomes.map (·.1) := by
    rw [hchannels]
    exact List.mem_map_of_mem hc
  obtain ⟨⟨id, r⟩, ho, he⟩ := List.mem_map.mp hmem
  obtain rfl : id = channelId := he.trans hid
  obtain ⟨report, rfl, -⟩ := hall r ho
  have hsome : (outcomes.any fun o => isRead o.2) = true := List.any_eq_true.mpr ⟨_, ho, rfl⟩
  unfold acquired at hun
  rw [hsome, Bool.not_true, Bool.and_false, if_neg Bool.false_ne_true] at hun
  split_ifs at hun

/-! ## A sample -/

namespace Sample

/-- a run that is acquiring two channels of its owner. -/
def twoChannels : Db :=
  { Db.empty with
    channels := [⟨1, "rustlang", none⟩, ⟨2, "golang_news", none⟩]
    subscriptions := [⟨1, 7, 1, 0, true⟩, ⟨2, 7, 2, 0, true⟩]
    runs := [⟨50, 7, 12, .onDemand, "digest", 0, 1000000000, .ru, .acquiring, none, false, 0, 0⟩] }

/-- the provider as two ticks find it: at first one channel is read and the other has to wait, an
hour later neither is resolved. -/
def fading (later : Bool) (n : Nat) : (q : Question) → q.Answer
  | .moment => ⟨if later then 3600000000 else 0, fun k => 100 * n + k, none⟩
  | .resolve username =>
    if later then .error .unavailable
    else if username = "rustlang" then .ok 1
    else .error (.floodWait 1000000000)
  | .fetch _ _ _ => .ok page
  | .publish _ => true

/-- the first tick, -/
def readingTick : Action RunExecutionError Tick × Db :=
  Prog.advance (fading false) 60 (tick contracts 10, twoChannels)

/-- and the second one. -/
def failingTick : Action RunExecutionError Tick × Db :=
  Prog.advance (fading true) 60 (tick contracts 10, readingTick.2)

/-- the run and the outcomes of a program that has ended, and whether it failed the run. -/
def walked (p : Action RunExecutionError Tick) : Option (PendingRun × Outcomes × Bool) :=
  p.answer?.bind fun r => r.toOption.bind fun t => t.walks.map fun x => (x.1, x.2.2, t.isUnavailable)

/-- the run as the ticks read it. -/
def twoChannelRun : PendingRun := ⟨50, 7, 0, 1000000000, .ru, .acquiring, 12⟩

theorem readingTick_walks : walked readingTick.1 =
    some (twoChannelRun, [(2, .error .deferred), (1, .ok ⟨1, 1, false⟩)], false) := by decide +kernel

theorem failingTick_walks : walked failingTick.1 =
    some (twoChannelRun, [(2, .error .unavailable), (1, .error .unavailable)], true) := by
  decide +kernel

/-- what walked is a tick. -/
theorem walked_ticks {ans : Nat → (q : Question) → q.Answer} {n : Nat} {d : Db} {run : PendingRun}
    {outcomes : Outcomes} {b : Bool}
    (h : walked (Prog.advance (S := service) ans n (tick contracts 10, d)).1 =
      some (run, outcomes, b)) :
    ∃ listed, Ticks (Called contracts anyAnswer) run listed outcomes d
      (Prog.advance (S := service) ans n (tick contracts 10, d)).2 ∧
      (b = true → acquired outcomes = .unavailable) := by
  have hx : ∀ r, (Prog.advance (S := service) ans n (tick contracts 10, d)).1.answer? = some r →
      Runs (S := service) Bystander anyAnswer (tick contracts 10) d () r
        (Prog.advance (S := service) ans n (tick contracts 10, d)).2 () :=
    fun r hr => advance_runs (S := service) (fun _ _ => trivial) hr
  revert h
  unfold walked
  rcases ha : (Prog.advance (S := service) ans n (tick contracts 10, d)).1.answer? with _ | x | t
  · exact fun h => by cases h
  · exact fun h => by cases h
  rcases hw : t.walks with _ | ⟨run', listed, outcomes'⟩
  · exact fun h => by simp [Except.toOption, hw] at h
  intro h
  simp only [Option.bind_some, Except.toOption, hw, Option.map_some, Option.some.injEq,
    Prod.mk.injEq] at h
  obtain ⟨rfl, rfl, rfl⟩ := h
  exact ⟨listed, tick_ticks (hx _ ha) hw⟩

/-- the channel is read, -/
def resolvedCall : Action AcquisitionError AcquisitionReport × Db :=
  Prog.advance (fading false) 60 (execute contracts (twoChannelRun.request (1, "rustlang")),
    twoChannels)

/-- the other one is not resolved, -/
def refusedCall : Action AcquisitionError AcquisitionReport × Db :=
  Prog.advance (fading true) 60 (execute contracts (twoChannelRun.request (2, "golang_news")),
    resolvedCall.2)

/-- and the first one is resolved again. -/
def repeatedCall : Action AcquisitionError AcquisitionReport × Db :=
  Prog.advance (answers 3600000000 1000 page) 60
    (execute contracts (twoChannelRun.request (1, "rustlang")), refusedCall.2)

theorem resolvedCall_kept : KeptCall contracts (twoChannelRun.request (1, "rustlang")) twoChannels
    (.ok ⟨1, 1, false⟩) resolvedCall.2 where
  called := advance_runs (S := service) (fun _ _ => trivial) (by decide +kernel)
  resolved h := by
    obtain ⟨l, hl, -⟩ := h
    cases hl

theorem refusedCall_kept : KeptCall contracts (twoChannelRun.request (2, "golang_news")) resolvedCall.2
    (.error .unavailable) refusedCall.2 where
  called := advance_runs (S := service) (fun _ _ => trivial) (by decide +kernel)
  resolved h := by
    obtain ⟨l, hl, -⟩ := h
    have hnone : resolvedCall.2.lease 2 50 = none := by decide +kernel
    rw [show (twoChannelRun.request (2, "golang_news")).channelId = 2 from rfl,
      show (twoChannelRun.request (2, "golang_news")).runId = 50 from rfl, hnone] at hl
    cases hl

theorem repeatedCall_kept : KeptCall contracts (twoChannelRun.request (1, "rustlang")) refusedCall.2
    (.ok ⟨20, 1, false⟩) repeatedCall.2 where
  called := advance_runs (S := service) (fun _ _ => trivial) (by decide +kernel)
  resolved _ := by
    refine advance_runs (S := service) (fun n q => ?_) (by decide +kernel)
    cases q with
    | moment => exact rfl
    | resolve username => exact ⟨1, rfl⟩
    | _ => trivial

end Sample

theorem resolved_channel_stays : Sample.resolvedCall.2.subscribedChannels 7 =
      [(2, "golang_news"), (1, "rustlang")] ∧
    StaysRead 1 Sample.twoChannelRun Sample.resolvedCall.2
      [(2, .error .unavailable), (1, .ok ⟨20, 1, false⟩)] Sample.repeatedCall.2 := by
  have hlisted : Sample.resolvedCall.2.subscribedChannels 7 =
      [(2, "golang_news"), (1, "rustlang")] := by decide +kernel
  refine ⟨hlisted, read_stays_read Sample.contracts (by unfold KeyUnique; decide)
    (fun channelId hr => by obtain ⟨l, hl, -⟩ := hr; cases hl)
    (.call .refl rfl ⟨⟨1, "rustlang", none⟩, by decide, rfl, rfl⟩ Sample.resolvedCall_kept)
    ⟨.refl _, _, ?_, .refl _⟩ ⟨_, Option.eq_some_of_isSome (by decide +kernel), by decide +kernel⟩⟩
  rw [show Sample.twoChannelRun.ownerId = 7 from rfl, hlisted]
  exact .cons Sample.refusedCall_kept (.cons Sample.repeatedCall_kept (.nil (.refl _)))

/-- a channel that was read is forgotten: the second tick fails the run as if none had been. -/
theorem read_channel_forgotten : ¬ ∀ (run : PendingRun) (d₀ d d' listed : Db) (outcomes : Outcomes),
    KeyUnique Channel.channelId d₀.channels → (∀ channelId, ¬ d₀.read channelId run.runId) →
    Onward (Called Sample.contracts anyAnswer) run.runId d₀ d →
    Ticks (Called Sample.contracts anyAnswer) run listed outcomes d d' →
    ∀ channelId, d.read channelId run.runId → StaysRead channelId run listed outcomes d' := by
  intro h
  obtain ⟨listed₁, hfirst, -⟩ := Sample.walked_ticks Sample.readingTick_walks
  obtain ⟨listed₂, hsecond, -⟩ := Sample.walked_ticks Sample.failingTick_walks
  have hread : Sample.readingTick.2.read 1 50 := by
    refine ⟨_, Option.eq_some_of_isSome (by decide +kernel), ?_⟩
    decide +kernel
  have hstays := h _ Sample.twoChannels _ _ listed₂ _ (by unfold KeyUnique; decide)
    (fun channelId hr => by obtain ⟨l, hl, -⟩ := hr; cases hl)
    (hfirst.onward (fun hc => (Called.spares hc).kept) .refl) hsecond 1 hread
  obtain ⟨report, hr, -⟩ := hstays.outcome (.error .unavailable) (by decide)
  cases hr

end ChannelDigests
