import ChannelDigests.Delivery
import ChannelDigests.Documents

/-!
# Message handling is all or nothing

A handler runs several statements, some of them twice: a refused command is rolled back and
rejected in a second transaction.  Whatever statement is lost, the database is afterwards as it was
or holds one decision as a whole.

* `Decision`             what one message may leave: inbox row, domain rows and reports together;
* `served_whole`         a served message leaves the database alone or decides it;
* `handle_all_or_nothing`   **the same of every delivery**.
-/

namespace ChannelDigests
open Lib Prog

/-- the whole effect of one decision on a message. -/
inductive Decision (d d' : Db) : Message → Prop where
  | applied {m c messageId sha} : SubscriptionApplied m d d' c messageId sha →
      Decision d d' (.command (.subscription messageId c))
  | rejected {m c sha reason} : CommandRejected m d d' (Command.rejection c sha reason) →
      Decision d d' (.command c)
  | created {m c messageId sha} : RunCreated m d d' c messageId sha →
      Decision d d' (.command (.run messageId c))
  | repeated {m c messageId sha} : RunRepeated m d d' c messageId sha →
      Decision d d' (.command (.run messageId c))
  | fanned {m o} : OccurrenceFanned m d d' o → Decision d d' (.command (.occurrence o))
  | completed {m fact analysisId messageId sha run manifest} : fact.analysisRef = some analysisId →
      CompletionSettled m d d' fact analysisId messageId sha
        (d.incompleteFlag fact.digestRunId fact.owner) run manifest →
      Decision d d' (.completed messageId fact)
  | failed {m fact manifestId messageId sha} : FailureSettled m d d' fact manifestId messageId sha →
      Decision d d' (.failed messageId fact)

/-- the inbox row of a decided message is completed or failed, never left in progress. -/
theorem Decision.inbox {d d' : Db} {message : Message} (h : Decision d d' message) :
    ∃ row, d'.inbox = d.inbox ++ [row] ∧ row.messageId = message.messageId ∧
      (row.state = .completed ∨ row.state = .failed) := by
  cases h with
  | applied h =>
    obtain ⟨-, s, d₁, ob, -, -, rfl⟩ := h
    exact ⟨_, rfl, rfl, .inl rfl⟩
  | rejected h =>
    obtain ⟨-, ob, -, rfl⟩ := h
    exact ⟨_, rfl, rfl, .inr rfl⟩
  | created h =>
    obtain ⟨-, -, -, -, ob, -, rfl⟩ := h
    exact ⟨_, rfl, rfl, .inl rfl⟩
  | repeated h =>
    obtain ⟨-, -, ob, -, rfl⟩ := h
    exact ⟨_, rfl, rfl, .inl rfl⟩
  | fanned h =>
    obtain ⟨-, runs, ob, -, -, rfl⟩ := h
    exact ⟨_, rfl, rfl, .inl rfl⟩
  | completed _ h =>
    obtain ⟨-, -, -, -, -, -, ob, -, rfl⟩ := h
    exact ⟨_, rfl, rfl, .inl rfl⟩
  | failed h =>
    obtain ⟨-, -, -, -, ob, -, rfl⟩ := h
    exact ⟨_, rfl, rfl, .inl rfl⟩

/-- the new inbox row refuses a subscription for the limit. -/
def Db.refusedBy (d d' : Db) : Prop :=
  ∃ row, d'.inbox = d.inbox ++ [row] ∧
    row.safeFailureClass = some RejectionReason.subscriptionLimit.failureClass

/-- a refusal by the limit leaves no channel, no subscription and no run. -/
theorem Decision.refused {d d' : Db} {message : Message} (h : Decision d d' message)
    (hr : d.refusedBy d') :
    d'.channels = d.channels ∧ d'.subscriptions = d.subscriptions ∧ d'.runs = d.runs := by
  obtain ⟨row, hrow, hclass⟩ := hr
  -- a handled row has no failure class.
  have handled : ∀ {r : InboxMessage}, d'.inbox = d.inbox ++ [r] → r.safeFailureClass = none →
      False := fun hin hnone => by
    rw [hrow, List.append_cancel_left_eq, List.singleton_inj] at hin
    rw [hin, hnone] at hclass
    cases hclass
  cases h with
  | rejected h =>
    obtain ⟨-, ob, -, rfl⟩ := h
    exact ⟨rfl, rfl, rfl⟩
  | applied h =>
    obtain ⟨-, s, d₁, ob, -, -, rfl⟩ := h
    exact (handled rfl rfl).elim
  | created h =>
    obtain ⟨-, -, -, -, ob, -, rfl⟩ := h
    exact (handled rfl rfl).elim
  | repeated h =>
    obtain ⟨-, -, ob, -, rfl⟩ := h
    exact (handled rfl rfl).elim
  | fanned h =>
    obtain ⟨-, runs, ob, -, -, rfl⟩ := h
    exact (handled rfl rfl).elim
  | completed _ h =>
    obtain ⟨-, -, -, -, -, -, ob, -, rfl⟩ := h
    exact (handled rfl rfl).elim
  | failed h =>
    obtain ⟨-, -, -, -, ob, -, rfl⟩ := h
    exact (handled rfl rfl).elim

section
variable {C : Contracts} {E : Type} {env : E → (q : Question) → q.Answer → E → Prop} {s : Db} {e : E}

/-- the program leaves the database alone, or it succeeds and decides the message. -/
abbrev Whole (env : E → (q : Question) → q.Answer → E → Prop) (message : Message) {ε α : Type}
    (p : Action ε α) (s : Db) (e : E) : Prop :=
  Safe (S := service) Eq env (always fun _ _ => True) p
    (fun r d _ => d = s ∨ ((∃ a, r = .ok a) ∧ Decision s d message)) s e

theorem reject_whole {c : Command} {sha : Digest} {reason : RejectionReason} :
    Whole env (.command c) (reject C (c.rejection sha reason)) s e :=
  reject_rule (alone env) (Q := fun r d => d = s ∨ ((∃ a, r = .ok a) ∧ Decision s d (.command c)))
    (fun _ _ hs _ => ⟨trivial, .inl hs.symm⟩) (fun _ hs _ => ⟨trivial, .inl hs.symm⟩)
    fun _ _ _ hs h => ⟨trivial, .inr ⟨⟨_, rfl⟩, .rejected (hs ▸ h)⟩⟩

theorem acceptSubscription_whole {messageId : Uuid} {payload : C.Bytes}
    {c : SubscriptionSetRequested} (hc : C.subscription.fromSlice payload = some c) :
    Whole env (.command (.subscription messageId c)) (acceptSubscription C messageId payload) s e :=
  acceptSubscription_rule (alone env) hc
    (Q := fun r d => d = s ∨ ((∃ a, r = .ok a) ∧
      Decision s d (.command (.subscription messageId c))))
    (fun _ _ => trivial) (fun _ _ hs _ => ⟨trivial, .inl hs.symm⟩)
    (fun _ hs _ => ⟨trivial, .inl hs.symm⟩)
    (fun _ _ _ _ hs h => ⟨trivial, .inr ⟨⟨_, rfl⟩, .rejected (hs ▸ h)⟩⟩)
    fun _ _ _ hs h => ⟨trivial, .inr ⟨⟨_, rfl⟩, .applied (hs ▸ h)⟩⟩

theorem acceptRun_whole {messageId : Uuid} {payload : C.Bytes} {c : RunRequested}
    (hc : C.run.fromSlice payload = some c) :
    Whole env (.command (.run messageId c)) (acceptRun C messageId payload) s e :=
  acceptRun_rule (alone env) hc
    (Q := fun r d => d = s ∨ ((∃ a, r = .ok a) ∧ Decision s d (.command (.run messageId c))))
    (fun _ _ => trivial) (fun _ _ hs _ => ⟨trivial, .inl hs.symm⟩)
    (fun _ hs _ => ⟨trivial, .inl hs.symm⟩)
    (fun _ _ _ _ hs h => ⟨trivial, .inr ⟨⟨_, rfl⟩, .rejected (hs ▸ h)⟩⟩)
    fun _ _ _ hs h => ⟨trivial, .inr ⟨⟨_, rfl⟩, hs ▸ h.elim .created .repeated⟩⟩

theorem acceptOccurrence_whole {o : OccurrenceRequest} :
    Whole env (.command (.occurrence o)) (acceptOccurrence C o) s e :=
  acceptOccurrence_rule (alone env)
    (Q := fun r d => d = s ∨ ((∃ a, r = .ok a) ∧ Decision s d (.command (.occurrence o))))
    (.inl rfl) (fun _ _ hs _ => ⟨trivial, .inl hs.symm⟩) (fun _ hs _ => ⟨trivial, .inl hs.symm⟩)
    fun _ _ _ hs h => ⟨trivial, .inr ⟨⟨_, rfl⟩, .fanned (hs ▸ h)⟩⟩

theorem settleCompletion_whole {messageId : Uuid} {completion : C.Bytes} {fact : RecapCompleted}
    (hc : C.completed.fromSlice completion = some fact) :
    Whole env (.completed messageId fact) (settleCompletion C messageId completion) s e := by
  refine settleCompletion_rule (alone env)
    (Q := fun r d => d = s ∨ ((∃ a, r = .ok a) ∧ Decision s d (.completed messageId fact)))
    (.inl rfl) (fun _ _ hs => ⟨trivial, .inl hs.symm⟩) (fun _ _ => trivial) ?_ ?_
  · intro _ _ s₁ s₂ _ _ _ h₁ h₂ _ _
    exact ⟨trivial, .inl (h₁.trans h₂).symm⟩
  · rintro fact' analysisId m s₁ s₂ s₃ s₄ r mf hfact ha rfl rfl rfl rfl - hdu hcons
    obtain rfl : fact = fact' := by
      rw [hc] at hfact
      exact Option.some.inj hfact
    simp only [RecapCompleted.consistent, Bool.and_eq_true, decide_eq_true_eq] at hcons
    obtain ⟨-, m₀, hm₀, e1, e2, -, rfl⟩ := durable_evidence hdu
    have hev : s.evidence fact.digestRunId fact.owner fact.manifestDigest fact.countsAgree :=
      ⟨m₀, hm₀, e1, e2, hcons.1.1.2.symm, hcons.1.2, hcons.2⟩
    exact settleCompletionTx_closes hev (fun x => ⟨trivial, .inl rfl⟩) (fun _ => ⟨trivial, .inl rfl⟩)
      fun d' run manifest h => ⟨trivial, .inr ⟨⟨_, rfl⟩, .completed ha h⟩⟩

theorem settleFailure_whole {messageId : Uuid} {failure : C.Bytes} {fact : RecapFailed}
    (hc : C.failed.fromSlice failure = some fact) :
    Whole env (.failed messageId fact) (settleFailure C messageId failure) s e := by
  refine settleFailure_rule (alone env)
    (Q := fun r d => d = s ∨ ((∃ a, r = .ok a) ∧ Decision s d (.failed messageId fact)))
    (.inl rfl) (fun _ _ hs => ⟨trivial, .inl hs.symm⟩) (fun _ _ => trivial) ?_ ?_
  · intro _ s₁ _ _ _ h₁ _ _
    exact ⟨trivial, .inl h₁.symm⟩
  · rintro fact' m s₁ s₂ r mf hfact rfl rfl hdu - hsha
    obtain rfl : fact = fact' := by
      rw [hc] at hfact
      exact Option.some.inj hfact
    obtain ⟨-, m₀, hm₀, e1, e2, -, rfl⟩ := durable_evidence hdu
    exact settleFailureTx_closes ⟨m₀, hm₀, e1, e2, hsha.symm, rfl⟩ (fun x => ⟨trivial, .inl rfl⟩)
      (fun _ => ⟨trivial, .inl rfl⟩) fun d' h => ⟨trivial, .inr ⟨⟨_, rfl⟩, .failed h⟩⟩

/-- how a delivery ends: unless it is acknowledged nothing changed, and then it is decided. -/
abbrev Ends (env : E → (q : Question) → q.Answer → E → Prop) (message : Message) (p : Delivery)
    (s : Db) (e : E) : Prop :=
  Safe (S := service) Eq env (always fun _ _ => True) p
    (fun r d _ => d = s ∨ (r = .ok .ack ∧ Decision s d message)) s e

theorem intakeDisposition_ends {message : Message} {p : Action IntakeError IntakeOutcome}
    (h : Whole env message p s e) : Ends env message (intakeDisposition p) s e := by
  refine (safe_next (S := service) _ _ _).mpr (Safe.imp (fun r d e hr => ?_) h)
  rcases hr with hr | ⟨⟨a, rfl⟩, hd⟩
  · rcases r with (_ | _) | _ <;> exact .inl hr
  · exact .inr ⟨rfl, hd⟩

theorem coordinatorDisposition_ends {message : Message} {p : Action CoordinatorError IntakeOutcome}
    (h : Whole env message p s e) : Ends env message (coordinatorDisposition p) s e := by
  refine (safe_next (S := service) _ _ _).mpr (Safe.imp (fun r d e hr => ?_) h)
  rcases hr with hr | ⟨⟨a, rfl⟩, hd⟩
  · rcases r with (_ | _) | _ <;> exact .inl hr
  · exact .inr ⟨rfl, hd⟩

/-- a served message leaves the database alone or decides the message. -/
theorem served_whole {p : Delivery} {message : Message} (hp : Serves C message p) :
    Ends env message p s e := by
  cases hp with
  | subscription hc => exact intakeDisposition_ends (acceptSubscription_whole hc)
  | run hc => exact intakeDisposition_ends (acceptRun_whole hc)
  | @unreadable messageId kind sha operationId ownerId =>
    have h : Whole env (.command (.unreadable messageId kind operationId ownerId))
        (reject C ((Command.unreadable messageId kind operationId ownerId).rejection sha
          .commandInvalid)) s e := reject_whole
    exact intakeDisposition_ends h
  | occurrence => exact coordinatorDisposition_ends acceptOccurrence_whole
  | completed hc => exact coordinatorDisposition_ends (settleCompletion_whole hc)
  | failed hc => exact coordinatorDisposition_ends (settleFailure_whole hc)

/-- **Message handling is all or nothing.**  Whatever bytes are delivered on whatever subject, in
whatever state, and whatever statement of whatever transaction is lost: the handling leaves the
database as it was, or it acknowledges and leaves one whole decision on the message it received.  A
refusal by the subscription limit leaves no channel and no subscription, and no handling leaves an
inbox row in progress. -/
theorem handle_all_or_nothing (language : OutputLanguage) (transport : String) (bytes : C.Bytes)
    {d d' : Db} {answer : Except Empty DeliveryDisposition} {e' : E}
    (h : Runs (S := service) Eq env (handle C language transport bytes) d e answer d' e') :
    (d' = d ∨ (answer = .ok .ack ∧ ∃ message, received C language transport bytes = some message ∧
      Decision d d' message)) ∧
    (answer ≠ .ok .ack → d' = d) ∧
    (∀ row ∈ d'.inbox, row.state = .processing → row ∈ d.inbox) ∧
    (d.refusedBy d' → d'.channels = d.channels ∧ d'.subscriptions = d.subscriptions ∧
      d'.runs = d.runs) := by
  have hend : d' = d ∨ (answer = .ok .ack ∧ ∃ message,
      received C language transport bytes = some message ∧ Decision d d' message) := by
    have hserve := handle_serves (C := C) language transport bytes
    rcases hm : received C language transport bytes with _ | message
    · rw [hm] at hserve
      rw [show handle C language transport bytes = pure .term from hserve] at h
      have hsafe : Safe (S := service) Eq env (always fun _ _ => True) (pure .term : Delivery)
        (fun _ t _ => t = d) d e := by rw [safe_pure]
      obtain ⟨t, rfl, hq⟩ := hsafe.runs (fun _ => rfl) Eq.trans h
      exact .inl hq
    · rw [hm] at hserve
      obtain ⟨t, rfl, hq⟩ := Safe.runs (fun _ => rfl) Eq.trans (served_whole hserve) h
      exact hq.imp_right fun ⟨ha, hd⟩ => ⟨ha, message, rfl, hd⟩
  refine ⟨hend, fun hne => hend.resolve_right fun h => hne h.1, fun row hrow hs => ?_, fun hr => ?_⟩
  · rcases hend with rfl | ⟨-, message, -, hd⟩
    · exact hrow
    · obtain ⟨new, hin, -, hstate⟩ := hd.inbox
      rw [hin] at hrow
      rcases List.mem_append.mp hrow with hrow | hrow
      · exact hrow
      · obtain rfl := List.mem_singleton.mp hrow
        rcases hstate with h | h <;> rw [h] at hs <;> cases hs
  · rcases hend with rfl | ⟨-, message, -, hd⟩
    · exact ⟨rfl, rfl, rfl⟩
    · exact hd.refused hr

end

namespace Sample

/-- the bytes of a command of the sample. -/
def packet (subject : Subject) (messageId : Uuid) (payload : Document) : Packet :=
  .command ⟨messageId, subject.contractType, platformProducer, "", none, some 7, payload⟩

/-- the subscription is delivered, and the fifth statement of its transaction is lost. -/
def cutShort : Delivery × Db :=
  Prog.advance
    (fun n q => match q with
      | .moment => ⟨5, fun k => 1000 + 10 * n + k, some 4⟩
      | q => answers 5 1000 page n q) 20
    (handle contracts .ru Subject.subscription.transport
      (packet .subscription 101 (.subscription subscribe)), Db.empty)

end Sample

theorem cutShort_whole :
    Sample.cutShort.1.answer? = some (.ok .nak) ∧ Sample.cutShort.2 = Db.empty := by
  have ha : Sample.cutShort.1.answer? = some (.ok .nak) := by decide +kernel
  have h : Runs (S := service) Eq (fun (_ : Unit) _ _ _ => True) (handle Sample.contracts .ru
      Subject.subscription.transport
      (Sample.packet .subscription 101 (.subscription Sample.subscribe))) Db.empty () (.ok .nak)
      Sample.cutShort.2 () := advance_runs (fun _ _ => trivial) ha
  exact ⟨ha, (handle_all_or_nothing _ _ _ h).2.1 nofun⟩

end ChannelDigests
