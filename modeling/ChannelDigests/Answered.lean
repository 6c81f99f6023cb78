import ChannelDigests.RunReports
import ChannelDigests.Settlement
import ChannelDigests.Atomicity
import ChannelDigests.Lib.Endings

/-!
# Acknowledged commands and their reports

A command is acknowledged when it is applied, when it is refused for good and when the inbox knows
it already: by its message identity, or by its subject and semantic key, whosever they are.

* `Command.awaitsReport`, `Db.answered`, `Db.keyTaken`   commands, their reports, and taken keys;
* `MessageIds`          a message identity belongs to one message;
* `Db.Heeded`           the invariant: a received command has a report;
* `Command.Handled`     what the last step of an acknowledged command is;
* `ack_reported_iff`    **an acknowledged command has a report unless its key was taken**.
-/

namespace ChannelDigests
open Lib Prog

/-- a subscription command or an on-demand run command, readable or not. -/
def Command.awaitsReport : Command → Bool
  | .subscription _ _ => true
  | .run _ c => c.trigger = .onDemand
  | .unreadable _ _ _ _ => true
  | .occurrence _ => false

/-- the outbox has a report of this operation. -/
def Db.answered (d : Db) (operationId : Uuid) : Prop :=
  ∃ status, d.queued (.report operationId status)

/-- another message took the semantic key of the command. -/
def Db.keyTaken (d : Db) (c : Command) : Prop :=
  ∃ row ∈ d.inbox, row.messageId ≠ c.messageId ∧ row.subject = c.subject ∧
    row.semanticKey = .text c.semanticKey

/-- a message identity belongs to one message. -/
def MessageIds (K : Message → Prop) : Prop :=
  ∀ m m', K m → K m' → m.messageId = m'.messageId → m = m'

/-- a received command has a report. -/
def Db.Heeded (K : Message → Prop) (d : Db) : Prop :=
  ∀ c, K (.command c) → c.awaitsReport = true → d.hasReceived c.messageId → d.answered c.operationId

section
variable {C : Contracts} {K : Message → Prop} {w : Crew} {k : Kind} {d d' : Db} {m : Moment}
  {messageId : Uuid} {sha : Digest}

/-! ## Reports that are queued -/

theorem Offered.answered {rows : List OutboxMessage} {row : OperationReportRow} {id : Uuid}
    {now : Instant} (h : Offered rows (row.outboxRow id now) d.outbox) :
    d.answered row.operationId :=
  ⟨row.report.status, (h.key _).mpr (.inr rfl)⟩

theorem SubscriptionApplied.answered {c : SubscriptionSetRequested}
    (h : SubscriptionApplied m d d' c messageId sha) : d'.answered c.operationId := by
  obtain ⟨s, d₁, ob, -, hob, rfl⟩ := h.effect
  exact Offered.answered (d := { d with outbox := ob }) hob

theorem CommandRejected.answered {r : Rejection} (h : CommandRejected m d d' r) :
    d'.answered r.operationId := by
  obtain ⟨ob, hob, rfl⟩ := h.effect
  exact Offered.answered (d := { d with outbox := ob }) hob

theorem OfferedQueued.answered {c : RunRequested} {rows : List OutboxMessage}
    (h : OfferedQueued m c messageId rows d.outbox) (ht : c.trigger = .onDemand) :
    d.answered c.operationId := by
  rw [OfferedQueued, if_pos ht] at h
  exact Offered.answered h

theorem RunCreated.answered {c : RunRequested} (h : RunCreated m d d' c messageId sha)
    (ht : c.trigger = .onDemand) : d'.answered c.operationId := by
  obtain ⟨ob, hob, rfl⟩ := h.effect
  exact OfferedQueued.answered (d := { d with outbox := ob }) hob ht

theorem RunRepeated.answered {c : RunRequested} (h : RunRepeated m d d' c messageId sha)
    (ht : c.trigger = .onDemand) : d'.answered c.operationId := by
  obtain ⟨ob, hob, rfl⟩ := h.effect
  exact OfferedQueued.answered (d := { d with outbox := ob }) hob ht

/-! ## The invariant -/

/-- a new row of the inbox is of a sent message, and a command that awaits a report has one. -/
theorem Change.receives (h : Change C K w k d d') {id : Uuid} (hr : d'.hasReceived id) :
    d.hasReceived id ∨ ∃ message, K message ∧ message.messageId = id ∧
      ∀ c, message = .command c → c.awaitsReport = true → d'.answered c.operationId := by
  have still : Table.inbox ∉ k.writes → d.hasReceived id := by
    intro ht
    obtain ⟨o, ho, hid⟩ := hr
    exact ⟨o, (show d'.inbox = d.inbox from h.frame .inbox ht) ▸ ho, hid⟩
  -- the rows of the inbox and one more.
  have added : ∀ {row : InboxMessage}, d'.inbox = d.inbox ++ [row] →
      d.hasReceived id ∨ row.messageId = id := by
    intro row hd'
    obtain ⟨o, ho, hid⟩ := hr
    rw [hd'] at ho
    rcases List.mem_append.mp ho with ho | ho
    · exact .inl ⟨o, ho, hid⟩
    · exact .inr (List.mem_singleton.mp ho ▸ hid)
  cases h with
  | @subscription _ _ _ c _ _ hk h =>
    have hans := h.answered
    obtain ⟨s, d₁, ob, -, -, heq⟩ := h.effect
    refine (added (congrArg Db.inbox heq)).imp_right fun hid => ⟨_, hk, hid, ?_⟩
    rintro _ ⟨⟩ _
    exact hans
  | rejection hk _ h =>
    have hans := h.answered
    obtain ⟨ob, -, heq⟩ := h.effect
    refine (added (congrArg Db.inbox heq)).imp_right fun hid => ⟨_, hk, hid, ?_⟩
    rintro _ ⟨⟩ _
    exact hans
  | created hk h =>
    have hans := h.answered
    obtain ⟨ob, -, heq⟩ := h.effect
    refine (added (congrArg Db.inbox heq)).imp_right fun hid => ⟨_, hk, hid, ?_⟩
    rintro _ ⟨⟩ ht
    exact hans (of_decide_eq_true ht)
  | repeated hk h =>
    have hans := h.answered
    obtain ⟨ob, -, heq⟩ := h.effect
    refine (added (congrArg Db.inbox heq)).imp_right fun hid => ⟨_, hk, hid, ?_⟩
    rintro _ ⟨⟩ ht
    exact hans (of_decide_eq_true ht)
  | occurrence hk h =>
    obtain ⟨runs, ob, -, -, heq⟩ := h.effect
    refine (added (congrArg Db.inbox heq)).imp_right fun hid => ⟨_, hk, hid, ?_⟩
    rintro _ ⟨⟩ ht
    cases ht
  | completion hk _ h _ =>
    obtain ⟨ob, -, heq⟩ := h.effect
    refine (added (congrArg Db.inbox heq)).imp_right fun hid => ⟨_, hk, hid, ?_⟩
    rintro _ ⟨⟩
  | recapFailure hk h =>
    obtain ⟨ob, -, heq⟩ := h.effect
    refine (added (congrArg Db.inbox heq)).imp_right fun hid => ⟨_, hk, hid, ?_⟩
    rintro _ ⟨⟩
  | _ => exact .inl (still (by decide))

theorem Change.answered (h : Change C K w k d d') (hd : d.Keyed) {operationId : Uuid}
    (ha : d.answered operationId) : d'.answered operationId :=
  ha.imp fun _ => h.queued hd

/-- **Every change keeps the received commands reported.** -/
theorem Change.heeded (h : Change C K w k d d') (hids : MessageIds K) (hd : d.Keyed)
    (hi : d.Heeded K) : d'.Heeded K := by
  intro c hc hw hr
  rcases h.receives hr with hr | ⟨message, hm, hid, hans⟩
  · exact h.answered hd (hi c hc hw hr)
  · exact hans c (hids _ _ hm hc hid) hw

/-! ## Acknowledging steps -/

/-- what the last step of an acknowledged command is: the inbox knew the command and nothing
changed, or it did not, and the command has a report. -/
def Command.Handled (c : Command) (d d' : Db) : Prop :=
  (d' = d ∧ d.inboxHolds c.messageId c.subject (.text c.semanticKey) = true) ∨
    (d.inboxHolds c.messageId c.subject (.text c.semanticKey) = false ∧
      (c.awaitsReport = true → d'.answered c.operationId))

theorem inboxHolds_iff {subject : Subject} {key : InboxKey} :
    d.inboxHolds messageId subject key = true ↔
      ∃ row ∈ d.inbox, row.messageId = messageId ∨ row.subject = subject ∧ row.semanticKey = key := by
  unfold Db.inboxHolds
  rw [List.any_eq_true]
  refine exists_congr fun row => and_congr_right fun _ => ?_
  rw [Bool.or_eq_true, Bool.and_eq_true, decide_eq_true_eq, decide_eq_true_eq, decide_eq_true_eq]

/-- **The report of an acknowledged command**: it is there afterwards exactly when nobody took the
key of the command, or it was there before. -/
theorem Command.Handled.answered_iff {c : Command} (h : c.Handled d d') (hw : c.awaitsReport = true)
    (hi : d.hasReceived c.messageId → d.answered c.operationId) :
    d'.answered c.operationId ↔ (d.keyTaken c → d.answered c.operationId) := by
  rcases h with ⟨rfl, hheld⟩ | ⟨hfree, hans⟩
  · refine ⟨fun ha _ => ha, fun ha => ?_⟩
    obtain ⟨row, hrow, hrow'⟩ := inboxHolds_iff.mp hheld
    by_cases hid : row.messageId = c.messageId
    · exact hi ⟨row, hrow, hid⟩
    · exact ha ⟨row, hrow, hid, hrow'.resolve_left hid⟩
  · refine ⟨fun _ hk => ?_, fun _ => hans hw⟩
    obtain ⟨row, hrow, -, hkey⟩ := hk
    rw [inboxHolds_iff.mpr ⟨row, hrow, .inr hkey⟩] at hfree
    cases hfree

end

/-! ## The programs -/

section
variable {C : Contracts} {E : Type} {R : Db → Db → Prop}
  {env : E → (q : Question) → q.Answer → E → Prop} {s : Db} {e : E} {c : Command}

/-- an intake program whose successful last step handles the command. -/
abbrev HandledBy (R : Db → Db → Prop) (env : E → (q : Question) → q.Answer → E → Prop) (c : Command)
    (p : Action IntakeError IntakeOutcome) (s : Db) (e : E) : Prop :=
  Safe (S := service) R env (fun d d' o => ∀ a, o = some (.ok a) → c.Handled d d') p
    (fun _ _ _ => True) s e

variable (w : Surrounds R env True)
include w

theorem reject_handles {sha : Digest} {reason : RejectionReason} :
    HandledBy R env c (reject C (c.rejection sha reason)) s e :=
  reject_rule w (Q := fun _ _ => True) (fun _ _ _ _ => ⟨by simp, trivial⟩)
    (fun _ _ hheld => ⟨fun _ _ => .inl ⟨rfl, hheld⟩, trivial⟩)
    fun _ _ _ _ h => ⟨fun _ _ => .inr ⟨h.fresh, fun _ => h.answered⟩, trivial⟩

theorem acceptSubscription_handles {messageId : Uuid} {payload : C.Bytes}
    {x : SubscriptionSetRequested} (hx : C.subscription.fromSlice payload = some x) :
    HandledBy R env (.subscription messageId x) (acceptSubscription C messageId payload) s e :=
  acceptSubscription_rule w hx (Q := fun _ _ => True) (fun _ _ => by simp)
    (fun _ _ _ _ => ⟨by simp, trivial⟩)
    (fun _ _ hheld => ⟨fun _ _ => .inl ⟨rfl, hheld⟩, trivial⟩)
    (fun _ _ _ _ _ h => ⟨fun _ _ => .inr ⟨h.fresh, fun _ => h.answered⟩, trivial⟩)
    fun _ _ _ _ h => ⟨fun _ _ => .inr ⟨h.fresh, fun _ => h.answered⟩, trivial⟩

theorem acceptRun_handles {messageId : Uuid} {payload : C.Bytes} {x : RunRequested}
    (hx : C.run.fromSlice payload = some x) :
    HandledBy R env (.run messageId x) (acceptRun C messageId payload) s e := by
  refine acceptRun_rule w hx (Q := fun _ _ => True) (fun _ _ => by simp)
    (fun _ _ _ _ => ⟨by simp, trivial⟩)
    (fun _ _ hheld => ⟨fun _ _ => .inl ⟨rfl, hheld⟩, trivial⟩)
    (fun _ _ _ _ _ h => ⟨fun _ _ => .inr ⟨h.fresh, fun _ => h.answered⟩, trivial⟩) ?_
  intro m s' s'' _ h
  refine ⟨fun _ _ => .inr ⟨?_, fun ht => ?_⟩, trivial⟩
  · exact h.elim (·.fresh) (·.fresh)
  · exact h.elim (·.answered (of_decide_eq_true ht)) (·.answered (of_decide_eq_true ht))

omit w in
/-- a delivery that is acknowledged ended its intake program with success. -/
theorem HandledBy.delivered {p : Action IntakeError IntakeOutcome} (h : HandledBy R env c p s e) :
    Safe (S := service) R env (fun d d' o => o = some (.ok .ack) → c.Handled d d')
      (intakeDisposition p) (fun _ _ _ => True) s e := by
  refine (safe_next (S := service) _ _ _).mpr
    (Safe.mono (fun _ _ => id) (fun _ _ _ _ => id) (fun d d' o ho => ?_) (fun r _ _ _ => ?_) h)
  · rcases o with _ | (x | a)
    · simp
    · intro hack
      cases x <;> cases hack
    · exact fun _ => ho a rfl
  · rcases r with (_ | _) | _ <;> trivial

/-- **The last step of an acknowledged command handles it.** -/
theorem served_handles {p : Delivery} (hc : c.subject ≠ .occurrence)
    (hp : Serves C (.command c) p) :
    Safe (S := service) R env (fun d d' o => o = some (.ok .ack) → c.Handled d d') p
      (fun _ _ _ => True) s e := by
  cases hp with
  | subscription hx => exact (acceptSubscription_handles w hx).delivered
  | run hx => exact (acceptRun_handles w hx).delivered
  | @unreadable messageId kind sha operationId ownerId =>
    have h : HandledBy R env (.unreadable messageId kind operationId ownerId)
        (reject C ((Command.unreadable messageId kind operationId ownerId).rejection sha
          .commandInvalid)) s e := reject_handles w
    exact h.delivered
  | occurrence => exact absurd rfl hc

end

/-! ## An acknowledgement comes with a transaction -/

section
variable {C : Contracts}

theorem decides_verdict {t : Moment → Sql IntakeError (Fate Verdict)} {r : Rejection}
    {W : Except IntakeError IntakeOutcome → Prop} :
    Decides (S := service) W (transaction t >>= fun v => match v with
      | .outcome o => pure o
      | .refused => reject C r) := by
  refine decides_transaction fun x => ?_
  rcases x with x | (o | _)
  · exact .inl ⟨_, rfl⟩
  · exact .inl ⟨_, rfl⟩
  · exact .inr fun _ _ => .inl ⟨_, rfl⟩

theorem intake_decides {p : Action IntakeError IntakeOutcome}
    (h : Decides (S := service) (fun r => ∃ a, r = .ok a) p) :
    Decides (S := service) (· = .ok .ack) (intakeDisposition p) := by
  unfold intakeDisposition
  refine (decides_next (S := service) p fun r => ?_).mpr (h.mono fun r hr => ?_)
  · rcases r with (_ | _) | _
    · exact ⟨_, rfl⟩
    · exact ⟨_, rfl⟩
    · exact ⟨_, rfl⟩
  · rcases r with (_ | _) | o
    · cases hr _ rfl
    · cases hr _ rfl
    · exact ⟨o, rfl⟩

theorem served_decides {c : Command} {p : Delivery} (hc : c.subject ≠ .occurrence)
    (hp : Serves C (.command c) p) : Decides (S := service) (· = .ok .ack) p := by
  cases hp with
  | @subscription messageId payload x hx =>
    refine intake_decides ?_
    unfold acceptSubscription
    rw [hx]
    dsimp only
    split_ifs
    · exact fun _ _ => .inl ⟨_, rfl⟩
    · exact decides_verdict
  | @run messageId payload x hx =>
    refine intake_decides ?_
    unfold acceptRun
    rw [hx]
    dsimp only
    split_ifs
    · exact fun _ _ => .inl ⟨_, rfl⟩
    · exact decides_verdict
  | unreadable => exact intake_decides fun _ _ => .inl ⟨_, rfl⟩
  | occurrence => exact absurd rfl hc

end

/-! ## Every run of the worker -/

theorem Command.awaitsReport_subject {c : Command} (h : c.awaitsReport = true) :
    c.subject ≠ .occurrence := by
  cases c with
  | unreadable _ kind _ _ => cases kind <;> nofun
  | occurrence => cases h
  | _ => nofun

section
variable {C : Contracts} {S : Setting}

/-- the task is a delivery of the command. -/
def Task.Delivers (language : OutputLanguage) (c : Command) : Task C → Prop
  | .deliver _ transport bytes => received C language transport bytes = some (.command c)
  | _ => False

/-- the acknowledgement of a command other than an occurrence. -/
def Task.Acknowledged (language : OutputLanguage) (t : Task C) (r : Except Empty Ending) : Prop :=
  (∃ c, t.Delivers language c ∧ c.subject ≠ .occurrence) ∧ r = .ok (.disposition .ack)

theorem delivery_decides (t : Task C) :
    Decides (S := service) (t.Acknowledged S.language) ((worker C S).body t) := by
  cases t with
  | deliver calm transport bytes =>
    by_cases h : ∃ c, received C S.language transport bytes = some (.command c) ∧
        c.subject ≠ .occurrence
    · obtain ⟨c, hm, hc⟩ := h
      have hserve := handle_serves (C := C) S.language transport bytes
      rw [hm] at hserve
      refine (decides_map (S := service) _ _).mpr ((served_decides hc hserve).mono fun r hr => ?_)
      obtain ⟨-, hr⟩ := hr
      rcases r with x | a
      · cases x
      · cases hr
        rfl
    · exact (decides_never (S := service) _).mono fun r hr => h hr.1
  | _ => exact (decides_never (S := service) _).mono fun r hr => hr.1.elim fun _ hc => hc.1

theorem delivery_handles {t : Task C} {d : Db} :
    Safe (S := service) (S.Others C t) ((worker C S).env t)
      (fun d d' o => ∀ c, t.Delivers S.language c → c.subject ≠ .occurrence →
        o = some (.ok (.disposition .ack)) → c.Handled d d') ((worker C S).body t)
      (fun _ _ _ => True) d () := by
  have w : Surrounds (S.Others C t) ((worker C S).env t) True :=
    Setting.Others.surrounds fun _ _ _ _ _ => trivial
  have plain : ∀ {p : Action Empty Ending}, (∀ c, ¬ t.Delivers S.language c ∨ c.subject = .occurrence) →
      Safe (S := service) (S.Others C t) ((worker C S).env t)
        (fun d d' o => ∀ c, t.Delivers S.language c → c.subject ≠ .occurrence →
          o = some (.ok (.disposition .ack)) → c.Handled d d') p (fun _ _ _ => True) d () := by
    intro p hno
    refine Safe.mono (fun _ _ => id) (fun _ _ _ _ => id) (fun _ _ _ _ c hc hs _ => ?_)
      (fun _ _ _ => id) (safe_trivial p d ())
    exact absurd hs (by simpa using (hno c).resolve_left (not_not.mpr hc))
  cases t with
  | deliver calm transport bytes =>
    by_cases h : ∃ c, received C S.language transport bytes = some (.command c) ∧
        c.subject ≠ .occurrence
    · obtain ⟨c, hm, hc⟩ := h
      have hserve := handle_serves (C := C) S.language transport bytes
      rw [hm] at hserve
      refine safe_ending.mpr (Safe.mono (fun _ _ => id) (fun _ _ _ _ => id)
        (fun d d' o ho c' hc' _ hack => ?_) (fun _ _ _ _ => trivial) (served_handles w hc hserve))
      obtain rfl : c = c' := by
        rw [show received C S.language transport bytes = some (.command c') from hc'] at hm
        cases hm
        rfl
      refine ho ?_
      rcases o with _ | (x | a)
      · cases hack
      · cases x
      · cases hack
        rfl
    · refine plain fun c => ?_
      by_contra hc
      rw [not_or, not_not] at hc
      exact h ⟨c, hc⟩
  | _ => exact plain fun c => .inl id

/-- **An acknowledged command has a report unless its key was taken.**  In every run of a worker,
with any tasks beside each other and any statement lost: when the handling of a subscription
command or of an on-demand run command ends with `Ack`, the outbox has a report of its operation
afterwards if and only if no row of the inbox had its semantic key under another message identity,
or the operation had a report before. -/
theorem ack_reported_iff (hids : MessageIds S.sent) {P P' : Pool service (Task C) Empty Ending}
    (hP : Pool.Reach (worker C S) ⟨[], Db.empty⟩ P) {calm : Bool} {transport : String}
    {bytes : C.Bytes} {c : Command}
    (hm : received C S.language transport bytes = some (.command c)) (hc : c.awaitsReport = true)
    (hack : Pool.Ends (worker C S) P P' (.deliver calm transport bytes)
      (.ok (.disposition .ack))) :
    P'.state.answered c.operationId ↔
      (P.state.keyTaken c → P.state.answered c.operationId) := by
  have hs := c.awaitsReport_subject hc
  have hsound : ((discipline C S).enrich fun _ _ => delivery_handles).Sound P :=
    Discipline.sound_reach (Discipline.sound_empty Db.Keyed.empty) hP
  have hg := hack.guar hsound (reach_decides delivery_decides hP) ⟨⟨c, hm, hs⟩, rfl⟩
  have hheeded : P.state.Keyed ∧ P.state.Heeded S.sent := by
    have hreach : Reachable C S P.state := ⟨P.threads, hP⟩
    refine hreach.keeps (I := fun d => d.Keyed ∧ d.Heeded S.sent) ⟨.empty, ?_⟩ fun hch hI =>
      ⟨hch.keyed hI.1, hch.heeded hids hI.1 hI.2⟩
    rintro _ _ _ ⟨_, h, -⟩
    cases h
  have hsent : S.sent (.command c) := by
    obtain ⟨ts, hstart⟩ := hack.started hP
    exact hstart.1 _ hm
  exact (hg.2 c hm hs rfl).answered_iff hc (hheeded.2 c hsent hc)

end

namespace Sample

/-- a command for another channel under the key of the first one. -/
def sameKey : SubscriptionSetRequested := ⟨21, 7, "subscribe", "golang_news", true⟩

def twoCommands : Setting where
  language := .ru
  sent m := m = .command (.subscription 101 subscribe) ∨ m = .command (.subscription 107 sameKey)
  crew := .many
  serial := False

/-- a delivery of a subscription command. -/
def subscribing (messageId : Uuid) (c : SubscriptionSetRequested) : Task contracts :=
  .deliver true Subject.subscription.transport (packet .subscription messageId (.subscription c))

/-- the first command is handled, and the second one is about to be. -/
def twoDeliveries : List (Turn service (Task contracts)) :=
  [.start (subscribing 101 subscribe), .run 0 100 (answers 5 1000 page),
    .start (subscribing 107 sameKey), .run 1 1 (answers 6 2000 page)]

def claimed : Pool service (Task contracts) Empty Ending :=
  Pool.play (worker contracts twoCommands) twoDeliveries ⟨[], Db.empty⟩

/-- the pool after the last step of the second delivery. -/
def swallowed : Pool service (Task contracts) Empty Ending :=
  Pool.turn (worker contracts twoCommands) claimed (.run 1 1 (answers 7 3000 page))

theorem twoDeliveries_allowed :
    Pool.AllAllowed (worker contracts twoCommands) ⟨[], Db.empty⟩ twoDeliveries := by
  refine ⟨starts ?_ id rfl, fun u _ => answers_given _ _ _ _,
    starts ?_ id rfl, fun u _ => answers_given _ _ _ _, trivial⟩
  · rintro _ ⟨⟩
    exact .inl rfl
  · rintro _ ⟨⟩
    exact .inr rfl

theorem twoCommands_ids : MessageIds twoCommands.sent := by
  rintro m m' (rfl | rfl) (rfl | rfl) h
  · rfl
  · cases h
  · cases h
  · rfl

/-- the second command is acknowledged. -/
theorem sameKey_acknowledged : Pool.Ends (worker contracts twoCommands) claimed swallowed
    (subscribing 107 sameKey) (.ok (.disposition .ack)) := by
  have hlt : 1 < claimed.threads.length := by decide +kernel
  exact turn_ends (u := claimed.threads[1]) (List.getElem?_eq_getElem hlt) ⟨rfl, rfl⟩
    (answers_given _ _ _ _) rfl

end Sample

/-- **A command under a taken key is acknowledged without a report.** -/
theorem taken_key_unreported : ¬ ∀ (C : Contracts) (S : Setting), MessageIds S.sent →
    ∀ (P P' : Pool service (Task C) Empty Ending) (calm : Bool) (transport : String)
      (bytes : C.Bytes) (c : Command), Pool.Reach (worker C S) ⟨[], Db.empty⟩ P →
      received C S.language transport bytes = some (.command c) → c.awaitsReport = true →
      Pool.Ends (worker C S) P P' (.deliver calm transport bytes) (.ok (.disposition .ack)) →
      P'.state.answered c.operationId := by
  intro h
  obtain ⟨status, row, hrow, hkey⟩ := h _ Sample.twoCommands Sample.twoCommands_ids _ _ _ _ _ _
    (Pool.play_reach Sample.twoDeliveries_allowed) (by rfl) rfl Sample.sameKey_acknowledged
  have hno : ∀ row ∈ Sample.swallowed.state.outbox, ∀ status, row.key ≠ .report 21 status := by
    intro row hrow status
    have hrows : Sample.swallowed.state.outbox.map (·.key) = [.report 11 .succeeded] := by
      decide +kernel
    have hmem := List.mem_map_of_mem (f := fun o : OutboxMessage => o.key) hrow
    rw [hrows, List.mem_singleton] at hmem
    rw [hmem]
    nofun
  exact hno row hrow status hkey

/-- the key of the second of the two commands was taken. -/
theorem sameKey_unreported :
    Sample.swallowed.state.answered 21 ↔
      (Sample.claimed.state.keyTaken (.subscription 107 Sample.sameKey) →
        Sample.claimed.state.answered 21) :=
  ack_reported_iff (c := .subscription 107 Sample.sameKey) Sample.twoCommands_ids
    (Pool.play_reach Sample.twoDeliveries_allowed) (by rfl) rfl Sample.sameKey_acknowledged

end ChannelDigests
