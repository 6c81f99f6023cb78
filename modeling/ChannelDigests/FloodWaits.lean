import ChannelDigests.ReadChannels
import ChannelDigests.Lib.Dialogue

/-!
# Provider waits

The provider may answer any request with a wait.  The wait is stored as a lease, and the walks of
the same run and channel are deferred until the lease expires.

* `clock`, `Waits`      an environment with a time, and an answer that is a wait;
* `Stands`              a call at a provider request: its cursor, its pages and its revisions;
* `Guarded`             a time that is reached or that an active wait guards;
* `Journey`             calls of any runs and channels, each cut anywhere, beside others;
* `tick_journeys`       a tick is one;
* `wait_honoured`       **a stored wait is honoured for its whole seconds, from one to 3600, and the
  walk goes on where it stood**.
-/

namespace ChannelDigests
open Lib Prog

/-- a request to the provider. -/
def Question.isProvider : Question → Bool
  | .resolve _ => true
  | .fetch _ _ _ => true
  | _ => false

/-- the answer is a wait of so many nanoseconds. -/
def Waits : (q : Question) → q.Answer → Nat → Prop
  | .resolve _, reply, wait => reply = .error (.floodWait wait)
  | .fetch _ _ _, reply, wait => reply = .error (.floodWait wait)
  | _, _, _ => False

/-- time goes on, and a statement runs at the time it is. -/
def clock : Instant → (q : Question) → q.Answer → Instant → Prop
  | t, .moment, m, t' => t ≤ m.now ∧ m.now ≤ t'
  | t, _, _, t' => t ≤ t'

/-- the provider does not answer. -/
def hushed (t : Instant) (q : Question) (a : q.Answer) (t' : Instant) : Prop :=
  q.isProvider = false ∧ clock t q a t'

theorem clock_le {t t' : Instant} {q : Question} {a : q.Answer} (h : clock t q a t') : t ≤ t' := by
  cases q with
  | moment => exact le_trans h.1 h.2
  | resolve username => exact h
  | fetch channel before limit => exact h
  | publish message => exact h

theorem besideClock : Surrounds Bystander clock True :=
  ⟨Bystander.refl, Bystander.trans, fun _ _ _ _ _ => trivial⟩

section
variable {ε α : Type} {c d : Action ε α × Db × Instant}

theorem exec_time (h : Exec (S := service) Bystander clock c d) : c.2.2 ≤ d.2.2 := by
  induction h with
  | refl => exact le_refl _
  | step _ hs ih =>
    cases hs with
    | asked ha => exact le_trans ih (clock_le ha)
    | acted => exact ih
  | other _ _ ih => exact ih

end

section
variable {C : Contracts} {request : AcquisitionRequest} {d d' : Db} {t t' x : Instant}
  {channelId runId : Uuid}

/-! ## The lease of a wait -/

/-- the lease of the channel and the run is a wait that lasts until `x` at least. -/
structure Held (channelId runId : Uuid) (x : Instant) (at_ : Cursor) (l : Lease) (d : Db) : Prop where
  lease : d.lease channelId runId = some l
  state : l.checkpoint.state = .floodWait
  until_ : x ≤ l.expiresAt
  cursor : (⟨l.checkpoint.beforeMessageId, l.checkpoint.pages, l.checkpoint.revisions⟩ : Cursor) = at_

/-- a checkpoint of another channel or run is none of this one. -/
theorem Db.lease_putLease_other (d : Db) (row : Lease)
    (hne : ¬ (row.channelId = channelId ∧ row.runId = runId)) :
    (d.putLease row).lease channelId runId = d.lease channelId runId := by
  unfold Db.putLease Db.lease
  dsimp only
  have other : ∀ l : Lease, l.channelId = row.channelId → l.runId = row.runId →
      (decide (l.channelId = channelId) && decide (l.runId = runId)) = false := by
    intro l hc hr
    rw [hc, hr, Bool.and_eq_false_iff, decide_eq_false_iff_not, decide_eq_false_iff_not]
    exact not_and_or.mp hne
  split_ifs
  · refine find?_updateWhere_of_not fun l hl => ?_
    rw [Bool.and_eq_true, decide_eq_true_eq, decide_eq_true_eq] at hl
    exact ⟨other l hl.1 hl.2, other row rfl rfl⟩
  · rw [List.find?_append, List.find?_singleton, other row rfl rfl, if_neg Bool.false_ne_true,
      Option.or_none]

/-- `x` is reached, or an active wait guards it. -/
def Guarded (channelId runId : Uuid) (x : Instant) (d : Db) (t : Instant) : Prop :=
  x ≤ t ∨ ∃ at_ l, Held channelId runId x at_ l d

theorem Guarded.kept (h : Guarded channelId runId x d t)
    (hl : d'.lease channelId runId = d.lease channelId runId) (ht : t ≤ t') :
    Guarded channelId runId x d' t' := by
  rcases h with h | ⟨at_, l, h⟩
  · exact .inl (le_trans h ht)
  · exact .inr ⟨at_, l, hl.trans h.lease, h.state, h.until_, h.cursor⟩

/-- a walk that starts at a lease starts after the wait of the lease, and where it stood. -/
theorem Held.resumes {at_ start : Cursor} {l : Lease} (h : Held channelId runId x at_ l d)
    {maxPages : Nat} {now : Instant}
    (hr : resumeFrom (d.lease channelId runId) maxPages now = .ok start) : x ≤ now ∧ start = at_ := by
  rw [h.lease] at hr
  unfold resumeFrom at hr
  dsimp only at hr
  rw [h.state] at hr
  split_ifs at hr with hactive hdone
  · cases hdone
  · cases hr
    refine ⟨?_, h.cursor⟩
    have hexpired : ¬ now < l.expiresAt := fun hlt => hactive ⟨rfl, hlt⟩
    exact le_trans h.until_ (not_lt.mp hexpired)

/-! ## One call -/

/-- the program is not about to send a request to the provider. -/
def Silent {ε α : Type} (p : Action ε α) : Prop :=
  ∀ q k, p = .ask q k → q.isProvider = false

theorem keeps_exec {ε α : Type} {env : Instant → (q : Question) → q.Answer → Instant → Prop}
    {p p' : Action ε α} (hp : p.Keeps (Bystander d))
    (h : Exec (S := service) Bystander env (p, d, t) (p', d', t')) : Bystander d d' :=
  (Prog.Keeps.exec (S := service) (R := Bystander) hp (fun ho hd => Bystander.trans hd ho)
    (Bystander.refl d) h).1

/-- a program that has ended does no more. -/
theorem stopped_exec {ε α : Type} {env : Instant → (q : Question) → q.Answer → Instant → Prop}
    {r : Except ε α} {p' : Action ε α}
    (h : Exec (S := service) Bystander env (.done r, d, t) (p', d', t')) :
    Bystander d d' ∧ Silent p' := by
  have hkeeps : (.done r : Action ε α).Keeps (Bystander d) := trivial
  have hnone : (.done r : Action ε α).Asks fun _ : Question => False := trivial
  refine ⟨keeps_exec hkeeps h, fun q k he => ?_⟩
  have hasks := hnone.exec h
  rw [he] at hasks
  exact hasks.1.elim

theorem resume_keeps (request : AcquisitionRequest) : (resume request).Keeps (Bystander d) :=
  (keeps_statement fun _ => Tx.keeps_read _ _).bind fun _ => Prog.keeps_lift _

theorem resume_asks (request : AcquisitionRequest) :
    (resume request).Asks fun q : Question => q.isProvider = false := by
  refine Prog.Asks.next ⟨rfl, fun _ _ => trivial⟩ fun r => ?_
  cases r <;> exact trivial

/-- the lease is read at one moment, and left as it is. -/
theorem resume_runs {r : Except AcquisitionError Cursor}
    (h : Runs (S := service) Bystander clock (resume request) d t r d' t') :
    d'.lease = d.lease ∧ ∀ at_, r = .ok at_ → ∃ now, now ≤ t' ∧
      resumeFrom (d.lease request.channelId request.runId) request.maxPages now = .ok at_ := by
  refine ⟨(keeps_exec (resume_keeps request) h).lease, ?_⟩
  have hsafe : Safe (S := service) Bystander clock (always fun _ _ => True) (resume request)
      (fun r _ t' => ∀ at_, r = .ok at_ → ∃ now, now ≤ t' ∧
        resumeFrom (d.lease request.channelId request.runId) request.maxPages now = .ok at_) d t := by
    unfold resume
    refine safe_read besideClock (fun s hs _ => ⟨trivial, fun _ at_ he => (by cases he)⟩)
      fun m s t₁ hm hs => ⟨trivial, fun at_ he => ⟨m.now, hm.2, ?_⟩⟩
    rw [← hs.lease]
    exact he
  obtain ⟨s, -, hs⟩ := Safe.runs (S := service) (R := Bystander) Bystander.refl
    (fun hab hbc => Bystander.trans hab hbc) hsafe h
  exact hs

/-- what is left of a call after it has read its lease. -/
def afterResume (C : Contracts) (request : AcquisitionRequest) :
    Except AcquisitionError Cursor → Action AcquisitionError AcquisitionReport
  | .ok at_ =>
    if !publicUsername request.username then Prog.fail .unavailable
    else resolve request at_ >>= fun channel =>
      walk C request channel (request.maxPages - at_.pages) at_ []
  | .error x => Prog.fail x

theorem execute_eq : execute C request = (resume request).next (afterResume C request) := by
  show (resume request).next _ = _
  congr 1
  funext r
  cases r <;> rfl

/-- a call has not got beyond its lease, or it goes on where the lease lets it. -/
theorem call_cases {env : Instant → (q : Question) → q.Answer → Instant → Prop}
    (henv : ∀ t q a t', env t q a t' → clock t q a t')
    {p : Action AcquisitionError AcquisitionReport}
    (h : Exec (S := service) Bystander env (execute C request, d, t) (p, d', t')) :
    d'.lease = d.lease ∧ Silent p ∨
    ∃ s t₁ at_ now, s.lease = d.lease ∧ now ≤ t₁ ∧
      resumeFrom (d.lease request.channelId request.runId) request.maxPages now = .ok at_ ∧
      Exec (S := service) Bystander env (afterResume C request (.ok at_), s, t₁) (p, d', t') := by
  rw [execute_eq] at h
  have goes : ∀ {r s t₁}, Runs (S := service) Bystander env (resume request) d t r s t₁ →
      Exec (S := service) Bystander env (afterResume C request r, s, t₁) (p, d', t') →
      d'.lease = d.lease ∧ Silent p ∨ ∃ s t₁ at_ now, s.lease = d.lease ∧ now ≤ t₁ ∧
        resumeFrom (d.lease request.channelId request.runId) request.maxPages now = .ok at_ ∧
        Exec (S := service) Bystander env (afterResume C request (.ok at_), s, t₁) (p, d', t') := by
    intro r s t₁ hresume hrest
    obtain ⟨hl, hat⟩ := resume_runs (hresume.answers henv)
    cases r with
    | ok at_ =>
      obtain ⟨now, hnow, hr⟩ := hat at_ rfl
      exact .inr ⟨s, t₁, at_, now, hl, hnow, hr, hrest⟩
    | error x =>
      obtain ⟨ho, hsilent⟩ := stopped_exec hrest
      exact .inl ⟨ho.lease.trans hl, hsilent⟩
  rcases Exec.of_next h with ⟨p', hp, hx⟩ | ⟨r, s, t₁, hresume, hrest⟩
  · cases p' with
    | done r =>
      refine goes hx ?_
      rw [show p = afterResume C request r from hp]
      exact .refl
    | ask q k =>
      refine .inl ⟨(keeps_exec (resume_keeps request) hx).lease, fun q' k' he => ?_⟩
      have hasks := (resume_asks request).exec hx
      rw [show p = _ from hp] at he
      cases he
      exact hasks.1
    | act f k =>
      refine .inl ⟨(keeps_exec (resume_keeps request) hx).lease, fun q' k' he => ?_⟩
      rw [show p = _ from hp] at he
      cases he
  · exact goes hresume hrest

/-- a call of another run or channel leaves the lease as it is. -/
theorem call_elsewhere (hne : ¬ (request.channelId = channelId ∧ request.runId = runId))
    {p : Action AcquisitionError AcquisitionReport}
    (h : Exec (S := service) Bystander clock (execute C request, d, t) (p, d', t')) :
    d'.lease channelId runId = d.lease channelId runId := by
  have w : CallRule C request Bystander
      (fun s s' => s.lease channelId runId = d.lease channelId runId →
        s'.lease channelId runId = d.lease channelId runId) clock True
      (fun s => s.lease channelId runId = d.lease channelId runId) := by
    refine ⟨besideClock, fun ho hs => by rw [ho.lease]; exact hs, fun _ hs => hs, fun hs hstep => ?_⟩
    have hkept := hs
    cases hstep with
    | lease at_ state wait holder now =>
      rw [← Db.lease_putLease_other _ (checkpointLease request at_ state wait holder now) hne]
        at hkept
      exact ⟨fun _ => hkept, hkept⟩
    | append post published revisionId _ ha =>
      rcases appendRevision_some ha with ⟨rfl, -⟩ | ⟨rfl, -⟩
      · exact ⟨fun _ => hs, hs⟩
      · exact ⟨fun _ => hs, hs⟩
    | withdrawal g now => exact ⟨fun _ => hs, hs⟩
  exact Safe.holds (S := service) (R := Bystander)
    (I := fun s : Db => s.lease channelId runId = d.lease channelId runId) Bystander.refl
    (fun hab hbc => Bystander.trans hab hbc) (call_keeps w rfl) rfl
    (fun s s' ho hs => by rw [ho.lease]; exact hs) h

/-- **A call for the channel and the run keeps a guarded time, and sends a request behind it
only.** -/
theorem call_guarded (hg : Guarded request.channelId request.runId x d t)
    {p : Action AcquisitionError AcquisitionReport}
    (h : Exec (S := service) Bystander clock (execute C request, d, t) (p, d', t')) :
    Guarded request.channelId request.runId x d' t' ∧ (¬ Silent p → x ≤ t') := by
  have htime : t ≤ t' := exec_time h
  rcases call_cases (fun _ _ _ _ => id) h with ⟨hl, hsilent⟩ | ⟨s, t₁, at_, now, -, hnow, hr, hrest⟩
  · exact ⟨hg.kept (by rw [hl]) htime, fun hn => absurd hsilent hn⟩
  · have hafter : t₁ ≤ t' := exec_time hrest
    have hx : x ≤ t' := by
      rcases hg with hx | ⟨at₀, l, hl⟩
      · exact le_trans hx htime
      · exact le_trans (hl.resumes hr).1 (le_trans hnow hafter)
    exact ⟨.inl hx, fun _ => hx⟩

theorem resolve_not_silent (request : AcquisitionRequest) (at_ : Cursor) :
    ¬ Silent (resolve request at_ >>= fun channel =>
      walk C request channel (request.maxPages - at_.pages) at_ []) := fun hs =>
  Bool.false_ne_true (hs (.resolve request.username) _ rfl).symm

/-- without an answer a program stays at its request. -/
theorem hushed_stays {ε α : Type} {c p : Action ε α × Db × Instant}
    (h : Exec (S := service) Bystander hushed c p) (hc : ¬ Silent c.1) :
    p.1 = c.1 ∧ Bystander c.2.1 p.2.1 ∧ p.2.2 = c.2.2 := by
  induction h with
  | refl => exact ⟨rfl, .refl _, rfl⟩
  | @step b b' _ hs ih =>
    obtain ⟨hprog, -, -⟩ := ih
    rw [← hprog] at hc
    cases hs with
    | asked ha =>
      refine absurd (fun q k he => ?_) hc
      cases he
      exact ha.1
    | acted =>
      refine absurd (fun q k he => ?_) hc
      cases he
  | other _ ho ih => exact ⟨ih.1, ih.2.1.trans ho, ih.2.2⟩

/-- a call that the provider does not answer leaves every lease as it is, and its request is the
first one, from where the lease stands. -/
theorem call_hushed {p : Action AcquisitionError AcquisitionReport}
    (h : Exec (S := service) Bystander hushed (execute C request, d, t) (p, d', t')) :
    d'.lease = d.lease ∧ (¬ Silent p → ∃ at_ now, now ≤ t' ∧
      resumeFrom (d.lease request.channelId request.runId) request.maxPages now = .ok at_ ∧
      p = (resolve request at_ >>= fun channel =>
        walk C request channel (request.maxPages - at_.pages) at_ [])) := by
  rcases call_cases (fun _ _ _ _ ha => ha.2) h with ⟨hl, hsilent⟩ |
    ⟨s, t₁, at_, now, hl, hnow, hr, hrest⟩
  · exact ⟨hl, fun hn => absurd hsilent hn⟩
  · by_cases hname : publicUsername request.username = true
    · have hgo : afterResume C request (.ok at_) = (resolve request at_ >>= fun channel =>
          walk C request channel (request.maxPages - at_.pages) at_ []) := by
        unfold afterResume
        dsimp only
        rw [hname, Bool.not_true, if_neg Bool.false_ne_true]
      rw [hgo] at hrest
      obtain ⟨hp, ho, ht⟩ := hushed_stays hrest (resolve_not_silent request at_)
      have hnow' : now ≤ t' := by
        rw [show t' = t₁ from ht]
        exact hnow
      exact ⟨ho.lease.trans hl, fun _ => ⟨at_, now, hnow', hr, hp⟩⟩
    · have hstop : afterResume C request (.ok at_) = Prog.fail .unavailable := by
        unfold afterResume
        dsimp only
        rw [Bool.eq_false_iff.mpr hname, Bool.not_false, if_pos rfl]
      rw [hstop] at hrest
      obtain ⟨ho, hsilent⟩ := stopped_exec hrest
      exact ⟨ho.lease.trans hl, fun hn => absurd hsilent hn⟩

/-! ## The answer with a wait -/

/-- the call stands at a request: the name is to be resolved, or a page to be fetched. -/
inductive Stands (C : Contracts) (request : AcquisitionRequest) (at_ : Cursor) :
    Action AcquisitionError AcquisitionReport → Prop where
  | resolve : Stands C request at_ (resolve request at_ >>= fun channel =>
      walk C request channel (request.maxPages - at_.pages) at_ [])
  | fetch (channel n : Nat) (seen : List (Int × Digest)) :
      Stands C request at_ (walk C request channel (n + 1) at_ seen)

variable {at_ : Cursor} {wait : Nat}

/-- when the wait that was answered at `t` is over: whole seconds, at least one and at most 3600. -/
def waitUntil (t : Instant) (wait : Nat) : Instant := t + leaseSeconds (some wait) * second

/-- such a wait is kept in full. -/
def WholeWait (wait : Nat) : Prop :=
  wait ≤ 1000000000 ∨ wait ≤ 3600000000000 ∧ 1000000000 ∣ wait

theorem waitUntil_full {wait : Nat} :
    t * 1000 + wait ≤ waitUntil t wait * 1000 ↔ WholeWait wait := by
  have hseconds : wait ≤ leaseSeconds (some wait) * 1000000000 ↔ WholeWait wait := by
    unfold leaseSeconds WholeWait
    dsimp only
    omega
  rw [← hseconds]
  unfold waitUntil second
  generalize leaseSeconds (some wait) = seconds
  rw [Int.add_mul, Int.mul_assoc, Int.add_le_add_iff_left]
  omega

/-- the wait is stored with the cursor, or the statement is lost. -/
theorem checkpoint_holds : Safe (S := service) Bystander clock (always fun _ _ => True)
    (checkpoint request at_ .floodWait (some wait))
    (fun r s _ => (∃ l, Held request.channelId request.runId (waitUntil t wait) at_ l s) ∨
      r = .error .unavailable) d t := by
  refine safe_change besideClock (fun s _ _ => ⟨trivial, fun _ => .inr rfl⟩)
    fun m s t₁ hm _ => ⟨trivial, .inl ⟨_, s.lease_putLease _, rfl, ?_, rfl⟩⟩
  exact Int.add_le_add_right hm.1 _

/-- **A call that is answered with a wait and ends deferred has stored the wait and where it
stands.** -/
theorem Stands.stored {q : Question} {k : q.Answer → Action AcquisitionError AcquisitionReport}
    {a : q.Answer} (h : Stands C request at_ (.ask q k)) (ha : Waits q a wait)
    (hx : Runs (S := service) Bystander clock (k a) d t (.error .deferred) d' t') :
    ∃ l, Held request.channelId request.runId (waitUntil t wait) at_ l d' := by
  have hsafe : Safe (S := service) Bystander clock (always fun _ _ => True) (k a)
      (fun r s _ => (∃ l, Held request.channelId request.runId (waitUntil t wait) at_ l s) ∨
        r = .error .unavailable) d t := by
    generalize hp : (Prog.ask (S := service) q k : Action AcquisitionError AcquisitionReport) = p at h
    cases h with
    | resolve =>
      cases hp
      obtain rfl : a = .error (.floodWait wait) := ha
      refine (safe_bind (S := service) _ _ _).mpr ((safe_bind (S := service) _ _ _).mpr
        (Safe.imp (fun r s t₁ hr => ?_) checkpoint_holds))
      cases r with
      | ok u => exact hr.imp_right fun he => (by cases he)
      | error x => exact hr.imp_right fun he => (by cases he; rfl)
    | fetch channel n seen =>
      cases hp
      obtain rfl : a = .error (.floodWait wait) := ha
      refine (safe_bind (S := service) _ _ _).mpr
        (Safe.imp (fun r s t₁ hr => ?_) checkpoint_holds)
      cases r with
      | ok u => exact hr.imp_right fun he => (by cases he)
      | error x => exact hr.imp_right fun he => (by cases he; rfl)
  obtain ⟨s, ho, hs⟩ := Safe.runs (S := service) (R := Bystander) Bystander.refl
    (fun hab hbc => Bystander.trans hab hbc) hsafe hx
  rcases hs with ⟨l, hl⟩ | he
  · exact ⟨l, by rw [ho.lease]; exact hl.lease, hl.state, hl.until_, hl.cursor⟩
  · cases he

/-! ## Journeys -/

/-- calls of any runs and channels, each cut anywhere, while others work and time passes; the
provider answers the calls in `V` only. -/
inductive Journey (C : Contracts) (V : AcquisitionRequest → Prop) (d : Db) (t : Instant) :
    Db → Instant → Prop where
  | start : Journey C V d t d t
  | aside {d₁ d₂ t₁ t₂} : Journey C V d t d₁ t₁ → Bystander d₁ d₂ → t₁ ≤ t₂ → Journey C V d t d₂ t₂
  | call {d₁ d₂ t₁ t₂ request p} : Journey C V d t d₁ t₁ → V request →
      Exec (S := service) Bystander clock (execute C request, d₁, t₁) (p, d₂, t₂) →
      Journey C V d t d₂ t₂
  | unanswered {d₁ d₂ t₁ t₂ request p} : Journey C V d t d₁ t₁ →
      Exec (S := service) Bystander hushed (execute C request, d₁, t₁) (p, d₂, t₂) →
      Journey C V d t d₂ t₂

/-- every call may be answered. -/
abbrev everyCall : AcquisitionRequest → Prop := fun _ => True

/-- no call of the channel and the run is answered. -/
abbrev elsewhere (channelId runId : Uuid) (request : AcquisitionRequest) : Prop :=
  ¬ (request.channelId = channelId ∧ request.runId = runId)

theorem Journey.trans {V : AcquisitionRequest → Prop} {d₁ : Db} {t₁ : Instant}
    (h : Journey C V d t d₁ t₁) (h' : Journey C V d₁ t₁ d' t') : Journey C V d t d' t' := by
  induction h' with
  | start => exact h
  | aside _ ho ht ih => exact ih.aside ho ht
  | call _ hv hx ih => exact ih.call hv hx
  | unanswered _ hx ih => exact ih.unanswered hx

/-- a journey keeps a guarded time. -/
theorem Journey.guarded {V : AcquisitionRequest → Prop} (h : Journey C V d t d' t')
    (hg : Guarded channelId runId x d t) : Guarded channelId runId x d' t' := by
  have step : ∀ {d₁ t₁ d₂ t₂ request p}, Guarded channelId runId x d₁ t₁ →
      Exec (S := service) Bystander clock (execute C request, d₁, t₁) (p, d₂, t₂) →
      Guarded channelId runId x d₂ t₂ := by
    intro d₁ t₁ d₂ t₂ request p hg hx
    by_cases hsame : request.channelId = channelId ∧ request.runId = runId
    · obtain ⟨rfl, rfl⟩ := hsame
      exact (call_guarded hg hx).1
    · exact hg.kept (call_elsewhere hsame hx) (exec_time hx)
  induction h with
  | start => exact hg
  | aside _ ho ht ih => exact ih.kept (by rw [ho.lease]) ht
  | call _ _ hx ih => exact step ih hx
  | unanswered _ hx ih => exact step ih (hx.answers fun _ _ _ _ ha => ha.2)

/-- a journey without an answer for the channel and the run leaves their lease as it is. -/
theorem Journey.lease (h : Journey C (elsewhere channelId runId) d t d' t') :
    d'.lease channelId runId = d.lease channelId runId := by
  induction h with
  | start => rfl
  | aside _ ho _ ih => rw [ho.lease, ih]
  | call _ hv hx ih => rw [call_elsewhere hv hx, ih]
  | unanswered _ hx ih => rw [(call_hushed hx).1, ih]

/-- **A stored wait is honoured** for its whole seconds, from one to 3600: until then no call of
the run and the channel sends a request, whatever ticks, restarts and other calls come between.
The first request after it is sent from where the walk stood.  A wait of whole seconds up to an
hour is honoured in full. -/
theorem wait_honoured {request request' : AcquisitionRequest} {at_ : Cursor} {wait : Nat} {q : Question}
    {k : q.Answer → Action AcquisitionError AcquisitionReport} {a : q.Answer} {d d₁ : Db}
    {t t₁ : Instant} (hstands : Stands C request at_ (.ask q k)) (ha : Waits q a wait)
    (hstored : Runs (S := service) Bystander clock (k a) d t (.error .deferred) d₁ t₁)
    (hchannel : request'.channelId = request.channelId) (hrun : request'.runId = request.runId) :
    (∀ d₂ t₂ p d₃ t₃, Journey C everyCall d₁ t₁ d₂ t₂ →
      Exec (S := service) Bystander clock (execute C request', d₂, t₂) (p, d₃, t₃) → ¬ Silent p →
      waitUntil t wait ≤ t₃) ∧
    (∀ d₂ t₂ p d₃ t₃, Journey C (elsewhere request.channelId request.runId) d₁ t₁ d₂ t₂ →
      Exec (S := service) Bystander hushed (execute C request', d₂, t₂) (p, d₃, t₃) → ¬ Silent p →
      Stands C request' at_ p) ∧
    (WholeWait wait → t * 1000 + wait ≤ waitUntil t wait * 1000) := by
  obtain ⟨l, hl⟩ := hstands.stored ha hstored
  refine ⟨?_, ?_, waitUntil_full.mpr⟩
  · intro d₂ t₂ p d₃ t₃ hj hx hp
    have hg : Guarded request.channelId request.runId (waitUntil t wait) d₂ t₂ :=
      hj.guarded (.inr ⟨at_, l, hl⟩)
    rw [← hchannel, ← hrun] at hg
    exact (call_guarded hg hx).2 hp
  · intro d₂ t₂ p d₃ t₃ hj hx hp
    obtain ⟨start, now, -, hr, rfl⟩ := (call_hushed hx).2 hp
    rw [hchannel, hrun, hj.lease] at hr
    obtain ⟨-, rfl⟩ := hl.resumes hr
    exact .resolve

/-! ## Ticks -/

/-- a part of a tick that writes no lease and sends no request. -/
structure Quiet {ε α : Type} (p : Action ε α) : Prop where
  keeps : ∀ d, p.Keeps (Bystander d)
  asks : p.Asks fun q : Question => q.isProvider = false

theorem quiet_pure {ε α : Type} (a : α) : Quiet (pure a : Action ε α) :=
  ⟨fun _ => Prog.keeps_pure _, trivial⟩

theorem Quiet.next {ε ε' α β : Type} {p : Action ε α} {k : Except ε α → Action ε' β}
    (hp : Quiet p) (hk : ∀ r, Quiet (k r)) : Quiet (p.next k) :=
  ⟨fun d => (hp.keeps d).next fun r => (hk r).keeps d, hp.asks.next fun r => (hk r).asks⟩

theorem Quiet.bind {ε α β : Type} {p : Action ε α} {k : α → Action ε β} (hp : Quiet p)
    (hk : ∀ a, Quiet (k a)) : Quiet (p >>= k) := by
  refine hp.next fun r => ?_
  cases r with
  | ok a => exact hk a
  | error x => exact ⟨fun _ => Prog.keeps_done _, trivial⟩

theorem quiet_transaction {ε α : Type} {t : Moment → Sql ε (Fate α)}
    (h : ∀ d : Db, (transaction t).Keeps (Bystander d)) : Quiet (transaction t) :=
  ⟨h, rfl, fun _ _ => trivial⟩

theorem failWith_quiet (run : PendingRun) (failure : RunFailure) : Quiet (failWith C run failure) := by
  refine ⟨fun d => failWith_aside (bystander_tolerates d) run trivial, ?_⟩
  exact Prog.Asks.next ⟨rfl, fun _ _ => trivial⟩ fun _ => trivial

theorem commitSources_asks (run : PendingRun) (sources : List ManifestSource) (manifestId : Uuid) :
    (commitSources C run sources manifestId).Asks fun q : Question => q.isProvider = false := by
  have hcommit : ∀ (manifest : CanonicalManifest) (raw : C.Bytes),
      (commitManifest C manifest raw).Asks fun q : Question => q.isProvider = false := by
    intro manifest raw
    refine Prog.Asks.next trivial fun r => ?_
    cases r with
    | ok request => exact ⟨rfl, fun _ _ => trivial⟩
    | error x => exact trivial
  unfold commitSources
  split
  · exact (failWith_quiet run _).asks
  · split
    · exact trivial
    · refine Prog.Asks.next (Prog.Asks.next (hcommit _ _) fun _ => trivial) fun r => ?_
      cases r <;> exact trivial

theorem commit_quiet (run : PendingRun) (sources : List ManifestSource) (incomplete : Bool) :
    Quiet (commit C run sources incomplete) := by
  refine ⟨fun d => commit_aside (bystander_tolerates d) run incomplete trivial
    fun _ _ _ _ => trivial, ?_⟩
  unfold commit
  split_ifs
  · exact (failWith_quiet run _).asks
  · exact Prog.Asks.next ⟨rfl, fun _ _ => trivial⟩ fun _ => trivial
  · exact ⟨rfl, fun m => commitSources_asks run sources (m.ids 0)⟩

theorem proceed_quiet (sourceCount : Nat) (run : PendingRun) (listed : Db) (outcomes : Outcomes) :
    Quiet (proceed C sourceCount run listed outcomes) := by
  unfold proceed
  refine (quiet_transaction fun d => keeps_statement fun _ => Tx.keeps_read _ _).bind fun seen => ?_
  refine (quiet_transaction fun d => recordAcquisition_aside (bystander_tolerates d) _ _).bind
    fun _ => (commit_quiet run _ _).bind fun _ => quiet_pure _

/-- what a program does is a journey, and the requests that it sends are those of calls. -/
def Journeys (C : Contracts) {ε α : Type} (p : Action ε α) : Prop :=
  ∀ d t p' d' t', Exec (S := service) Bystander clock (p, d, t) (p', d', t') →
    Journey C everyCall d t d' t' ∧ (¬ Silent p' → ∃ request d₁ t₁ call,
      Journey C everyCall d t d₁ t₁ ∧
      Exec (S := service) Bystander clock (execute C request, d₁, t₁) (call, d', t') ∧ ¬ Silent call)

theorem Quiet.journeys {ε α : Type} {p : Action ε α} (hp : Quiet p) : Journeys C p := by
  intro d t p' d' t' hx
  refine ⟨.aside .start (keeps_exec (hp.keeps d) hx) (exec_time hx), fun hs => ?_⟩
  refine absurd (fun q k he => ?_) hs
  have hasks := hp.asks.exec hx
  rw [he] at hasks
  exact hasks.1

theorem execute_journeys (request : AcquisitionRequest) : Journeys C (execute C request) := by
  intro d t p' d' t' hx
  exact ⟨.call .start trivial hx, fun hs => ⟨request, d, t, p', .start, hx, hs⟩⟩

theorem Journeys.next {ε ε' α β : Type} {p : Action ε α} {k : Except ε α → Action ε' β}
    (hp : Journeys C p) (hk : ∀ r, Journeys C (k r)) : Journeys C (p.next k) := by
  intro d t p' d' t' hx
  have goes : ∀ {r s t₁}, Runs (S := service) Bystander clock p d t r s t₁ →
      Exec (S := service) Bystander clock (k r, s, t₁) (p', d', t') →
      Journey C everyCall d t d' t' ∧ (¬ Silent p' → ∃ request d₁ t₁ call,
        Journey C everyCall d t d₁ t₁ ∧
        Exec (S := service) Bystander clock (execute C request, d₁, t₁) (call, d', t') ∧
        ¬ Silent call) := by
    intro r s t₁ hr hrest
    have hj := (hp _ _ _ _ _ hr).1
    obtain ⟨hj', hcall⟩ := hk r _ _ _ _ _ hrest
    refine ⟨hj.trans hj', fun hs => ?_⟩
    obtain ⟨request, d₁, t₂, call, hj₁, hx₁, hs₁⟩ := hcall hs
    exact ⟨request, d₁, t₂, call, hj.trans hj₁, hx₁, hs₁⟩
  rcases Exec.of_next hx with ⟨q, hq, hx⟩ | ⟨r, s, t₁, hr, hrest⟩
  · have hq : p' = q.next k := hq
    subst hq
    cases q with
    | done r => exact goes hx .refl
    | ask x y =>
      refine ⟨(hp _ _ _ _ _ hx).1, fun hs => (hp _ _ _ _ _ hx).2 fun hsilent => hs ?_⟩
      intro x' y' he
      cases he
      exact hsilent x y rfl
    | act f y =>
      refine ⟨(hp _ _ _ _ _ hx).1, fun hs => absurd (fun x' y' he => ?_) hs⟩
      cases he
  · exact goes hr hrest

theorem Journeys.bind {ε α β : Type} {p : Action ε α} {k : α → Action ε β} (hp : Journeys C p)
    (hk : ∀ a, Journeys C (k a)) : Journeys C (p >>= k) := by
  refine hp.next fun r => ?_
  cases r with
  | ok a => exact hk a
  | error x => exact Quiet.journeys ⟨fun _ => Prog.keeps_done _, trivial⟩

theorem acquire_journeys (run : PendingRun) (channels : List (Uuid × String)) :
    Journeys C (acquire C run channels) := by
  induction channels with
  | nil => exact (quiet_pure _).journeys
  | cons channel channels ih =>
    refine Journeys.bind ((execute_journeys _).next fun r => (quiet_pure r).journeys) fun outcome => ?_
    exact ih.bind fun rest => (quiet_pure _).journeys

theorem acquireRun_journeys (sourceCount : Nat) (run : PendingRun) :
    Journeys C (acquireRun C sourceCount run) := by
  unfold acquireRun
  refine (quiet_transaction fun d => keeps_statement fun _ => Tx.keeps_read _ _).journeys.bind
    fun listed => (acquire_journeys run _).bind fun outcomes => ?_
  split
  · exact (quiet_pure _).journeys
  · exact ((failWith_quiet run _).bind fun _ => quiet_pure _).journeys
  · exact (proceed_quiet _ _ _ _).journeys

/-- **A tick is a journey**, wherever it is cut, and its requests are those of its calls. -/
theorem tick_journeys (sourceCount : Nat) : Journeys C (executeOne C sourceCount) := by
  unfold executeOne tick
  refine Journeys.bind ?_ fun tick => ?_
  · refine (quiet_transaction fun d => keeps_statement fun _ => Tx.keeps_read _ _).journeys.bind
      fun pending => ?_
    cases pending with
    | none => exact (quiet_pure _).journeys
    | some run =>
      dsimp only
      split_ifs
      · refine (quiet_transaction fun d =>
          beginAcquisition_aside (bystander_tolerates d) run).journeys.bind fun begun => ?_
        split_ifs
        · exact acquireRun_journeys _ _
        · exact (quiet_pure _).journeys
      · exact acquireRun_journeys _ _
  · cases tick <;> exact (quiet_pure _).journeys

/-- the tasks beside a single executor write no lease. -/
theorem others_bystander {S : Setting} (hcrew : S.crew = .one) {sourceCount : Nat}
    (h : S.Others C (.executeOne sourceCount) d d') : Bystander d d' :=
  h.keeps (I := Bystander d) (fun {k d₁ d₂} hk hc hd => hd.trans (hc.bystander fun he => by
    have hexecutor := hk.1 (.inr ⟨hcrew, rfl⟩)
    rw [he] at hexecutor
    cases hexecutor)) (.refl d)

/-! ## Waits that are cut short -/

/-- a call comes to its first request. -/
theorem comes_to_request (hname : publicUsername request.username = true) {start : Cursor}
    {now : Instant} (hnow : t ≤ now)
    (hr : resumeFrom (d.lease request.channelId request.runId) request.maxPages now = .ok start) :
    Exec (S := service) Bystander clock (execute C request, d, t)
      (resolve request start >>= fun channel =>
        walk C request channel (request.maxPages - start.pages) start [], d, now) := by
  have hgo : afterResume C request (.ok start) = (resolve request start >>= fun channel =>
      walk C request channel (request.maxPages - start.pages) start []) := by
    unfold afterResume
    dsimp only
    rw [hname, Bool.not_true, if_neg Bool.false_ne_true]
  have hread : Exec (S := service) Bystander clock ((resume request).next (afterResume C request), d, t)
      (afterResume C request (resumeFrom (d.lease request.channelId request.runId) request.maxPages
        now), d, now) := by
    have hmoment : clock t .moment ⟨now, fun n => n, none⟩ now := ⟨hnow, le_refl _⟩
    exact (Exec.refl.step (.asked hmoment)).step .acted
  rw [hr, hgo] at hread
  rw [execute_eq]
  exact hread

/-- the checkpoint with the wait may commit at once. -/
theorem commits_wait {q : Question} {k : q.Answer → Action AcquisitionError AcquisitionReport}
    {a : q.Answer} (h : Stands C request at_ (.ask q k)) (ha : Waits q a wait) (holder : Uuid) :
    Runs (S := service) Bystander clock (k a) d t (.error .deferred)
      (d.putLease (checkpointLease request at_ .floodWait (some wait) holder t)) t := by
  have hmoment : clock t .moment ⟨t, fun _ => holder, none⟩ t := ⟨le_refl _, le_refl _⟩
  generalize hp : (Prog.ask (S := service) q k : Action AcquisitionError AcquisitionReport) = p at h
  cases h with
  | resolve =>
    cases hp
    obtain rfl : a = .error (.floodWait wait) := ha
    exact (Exec.refl.step (.asked hmoment)).step .acted
  | fetch channel n seen =>
    cases hp
    obtain rfl : a = .error (.floodWait wait) := ha
    exact (Exec.refl.step (.asked hmoment)).step .acted

end

/-- a call is answered with a wait, comes to `p` or is cut there, and a later call of the same run
and channel sends a request before the wait, in nanoseconds, has elapsed. -/
def CutShort (C : Contracts) (wait : Nat) (p : Action AcquisitionError AcquisitionReport → Prop) :
    Prop :=
  ∃ (request : AcquisitionRequest) (at_ : Cursor) (q : Question)
    (k : q.Answer → Action AcquisitionError AcquisitionReport) (a : q.Answer) (d₀ d d₁ d₂ d₃ : Db)
    (t₀ t t' t₁ t₂ t₃ : Instant) (p₁ p₂ : Action AcquisitionError AcquisitionReport),
    Exec (S := service) Bystander clock (execute C request, d₀, t₀) (.ask q k, d, t) ∧
    Stands C request at_ (.ask q k) ∧ clock t q a t' ∧ Waits q a wait ∧
    Exec (S := service) Bystander clock (k a, d, t') (p₁, d₁, t₁) ∧ p p₁ ∧
    Journey C everyCall d₁ t₁ d₂ t₂ ∧
    Exec (S := service) Bystander clock (execute C request, d₂, t₂) (p₂, d₃, t₃) ∧ ¬ Silent p₂ ∧
    t₃ * 1000 < t' * 1000 + wait

namespace Sample

def newsRequest : AcquisitionRequest := ⟨50, 2, "rustlang", 0, 1000000000, 20, 100⟩

end Sample

section
variable {C : Contracts}

theorem newsRequest_named : publicUsername Sample.newsRequest.username = true := by decide +kernel

/-- the first request of the sample call, at any time and from any cursor that its lease allows. -/
theorem newsRequest_comes {d : Db} {t now : Instant} {start : Cursor} (hnow : t ≤ now)
    (hr : resumeFrom (d.lease 2 50) 20 now = .ok start) :
    Exec (S := service) Bystander clock (execute C Sample.newsRequest, d, t)
      (resolve Sample.newsRequest start >>= fun channel =>
        walk C Sample.newsRequest channel (20 - start.pages) start [], d, now) :=
  comes_to_request newsRequest_named hnow hr

/-- when the wait is over, its lease lets the sample call go on. -/
theorem newsRequest_resumes {wait : Nat} : resumeFrom ((Db.empty.putLease (checkpointLease
    Sample.newsRequest ⟨none, 0, 0⟩ .floodWait (some wait) 9 0)).lease 2 50) 20
    (waitUntil 0 wait) = .ok ⟨none, 0, 0⟩ := by
  rw [show Db.lease _ 2 50 = some _ from Db.lease_putLease Db.empty _]
  unfold resumeFrom
  exact if_neg fun hactive => absurd hactive.2 (lt_irrefl _)

theorem waitUntil_nonneg {wait : Nat} : 0 ≤ waitUntil 0 wait :=
  Int.add_nonneg (le_refl 0) (Int.mul_nonneg (Int.natCast_nonneg _) (by decide))

/-- a wait that is longer than its lease is cut short, although it is stored. -/
theorem cutShort_stored {wait : Nat} (h : waitUntil 0 wait * 1000 < wait) :
    CutShort C wait fun p => p = .done (.error .deferred) := by
  refine ⟨Sample.newsRequest, ⟨none, 0, 0⟩, .resolve "rustlang", _, .error (.floodWait wait),
    Db.empty, Db.empty, _, _, _, 0, 0, 0, 0, 0, waitUntil 0 wait, _, _,
    newsRequest_comes (le_refl 0) rfl, .resolve, le_refl 0, rfl, commits_wait .resolve rfl 9, rfl,
    .start, newsRequest_comes waitUntil_nonneg newsRequest_resumes, resolve_not_silent _ _, ?_⟩
  rw [Int.zero_mul, Int.zero_add]
  exact h

/-- a wait that is not stored is not honoured at all. -/
theorem cutShort_lost {wait : Nat} (h : 0 < wait) : CutShort C wait fun p => p.answer? = none := by
  refine ⟨Sample.newsRequest, ⟨none, 0, 0⟩, .resolve "rustlang", _, .error (.floodWait wait),
    Db.empty, Db.empty, _, _, _, 0, 0, 0, 0, 0, 0, _, _,
    newsRequest_comes (le_refl 0) rfl, .resolve, le_refl 0, rfl, .refl, rfl,
    .start, newsRequest_comes (le_refl 0) rfl, resolve_not_silent _ _, ?_⟩
  rw [Int.zero_mul, Int.zero_add]
  exact Int.natCast_pos.mpr h

end

/-- the wait of a minute is honoured, and no longer: then the call sends its request again. -/
theorem minuteWait_honoured :
    (∀ d₂ t₂ p d₃ t₃, Journey Sample.contracts everyCall (Db.empty.putLease (checkpointLease
        Sample.newsRequest ⟨none, 0, 0⟩ .floodWait (some 60000000000) 9 0)) 0 d₂ t₂ →
      Exec (S := service) Bystander clock (execute Sample.contracts Sample.newsRequest, d₂, t₂)
        (p, d₃, t₃) → ¬ Silent p → 60000000 ≤ t₃) ∧
    ∃ p d₃, Exec (S := service) Bystander clock (execute Sample.contracts Sample.newsRequest,
      Db.empty.putLease (checkpointLease Sample.newsRequest ⟨none, 0, 0⟩ .floodWait
        (some 60000000000) 9 0), 0) (p, d₃, 60000000) ∧ ¬ Silent p := by
  have hminute : waitUntil 0 60000000000 = 60000000 := by decide
  rw [← hminute]
  have h := @wait_honoured Sample.contracts Sample.newsRequest Sample.newsRequest ⟨none, 0, 0⟩
    60000000000 (.resolve "rustlang") _ (.error (.floodWait 60000000000)) Db.empty _ 0 0 .resolve rfl
    (commits_wait .resolve rfl 9) rfl rfl
  exact ⟨h.1, _, _, newsRequest_comes waitUntil_nonneg newsRequest_resumes,
    resolve_not_silent _ _⟩

/-- two hours are cut to one, a second and a half to one second, and a wait that a crash keeps from
its lease is forgotten. -/
theorem waits_cutShort :
    CutShort Sample.contracts 7200000000000 (fun p => p = .done (.error .deferred)) ∧
    CutShort Sample.contracts 1500000000 (fun p => p = .done (.error .deferred)) ∧
    CutShort Sample.contracts 60000000000 fun p => p.answer? = none :=
  ⟨cutShort_stored (by decide), cutShort_stored (by decide), cutShort_lost (by decide)⟩

end ChannelDigests
