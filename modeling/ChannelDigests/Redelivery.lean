import ChannelDigests.Answered
import ChannelDigests.Fit

/-!
# A message that was acknowledged is absorbed

The broker delivers at least once.  The five subjects know a replay by different marks: commands by
their rows in the inbox, a failure by its run, a completion by the stored result and the
completeness flag of its run.

* `Db.Absorbs`, `Db.Agrees`   the marks of a replay, and a stored outcome that is that of the flag;
* `Change.absorbs`, `Change.agrees_iff`   **no change takes a mark away** or changes the agreement;
* `Db.Entered`        the inbox: every row is of a sent message, and facts with a row stand;
* `served_absorbs`    the last step of an acknowledged message leaves its mark;
* `served_again`      a marked message changes nothing;
* `redelivered_settled`   **what every later delivery of an acknowledged message does**.
-/

namespace ChannelDigests
open Lib Prog

/-! ## What a replay is known by -/

/-- a stored result is the one that the completion would store, with some completeness. -/
def Db.Keeps (d : Db) (fact : RecapCompleted) : Prop :=
  ∃ analysisId stored incomplete, fact.analysisRef = some analysisId ∧
    d.resultEvidence fact.digestResultId = some stored ∧
    fact.matches analysisId (completionOutcome fact.omittedCount incomplete) stored = true

/-- the run of the failure has failed, and has a manifest. -/
def Db.Ended (d : Db) (fact : RecapFailed) : Prop :=
  ∃ r mf, d.durable fact.digestRunId fact.owner = some (r, mf) ∧ r.state = .failed

/-- the handler takes the message for a replay. -/
def Db.Absorbs (d : Db) : Message → Prop
  | .command c => d.inboxHolds c.messageId c.subject (.text c.semanticKey) = true
  | .completed _ fact => d.Keeps fact
  | .failed _ fact => d.Ended fact

/-- the outcome of the stored result is that of the completeness flag of its run. -/
def Db.Agrees (d : Db) (fact : RecapCompleted) : Prop :=
  ∀ stored, d.resultEvidence fact.digestResultId = some stored →
    stored.1.outcome =
      completionOutcome fact.omittedCount (d.incompleteFlag fact.digestRunId fact.owner)

section
variable {C : Contracts} {K : Message → Prop} {w : Crew} {k : Kind} {d d' : Db}

theorem resultEvidence_iff {id : Uuid} {stored : DigestResult × Digest} :
    d.resultEvidence id = some stored ↔
      ∃ m, d.results.find? (fun r => r.resultId = id) = some stored.1 ∧
        d.manifests.find? (fun m => m.manifestId = stored.1.manifestId) = some m ∧
        m.sha256 = stored.2 := by
  obtain ⟨r, sha⟩ := stored
  simp only [Db.resultEvidence, Option.bind_eq_bind, Option.bind_eq_some_iff, Option.pure_def,
    Option.some.injEq, Prod.mk.injEq]
  constructor
  · rintro ⟨x, hx, m, hm, rfl, rfl⟩
    exact ⟨m, hx, hm, rfl⟩
  · rintro ⟨m, hx, hm, rfl⟩
    exact ⟨r, hx, m, hm, rfl, rfl⟩

/-- a stored result is found by its identity, with the digest of its manifest. -/
theorem Db.Keyed.resultEvidence (hd : d.Keyed) {x : DigestResult} {m : Manifest}
    (hx : x ∈ d.results) (hm : m ∈ d.manifests) (hid : m.manifestId = x.manifestId) :
    d.resultEvidence x.resultId = some (x, m.sha256) := by
  refine resultEvidence_iff.mpr ⟨m, ?_, ?_, rfl⟩
  · exact hd.results.find? hx (by simp) fun o _ ho => of_decide_eq_true ho
  · exact hd.manifests.find? hm (by simpa using hid) fun o _ ho =>
      (of_decide_eq_true ho).trans hid.symm

theorem Change.resultEvidence (h : Change C K w k d d') (hd : d.Keyed) {id : Uuid}
    {stored : DigestResult × Digest} (he : d.resultEvidence id = some stored) :
    d'.resultEvidence id = some stored := by
  obtain ⟨m, hx, hm, hsha⟩ := resultEvidence_iff.mp he
  obtain ⟨m', hm', hmove⟩ := h.manifest_kept (List.mem_of_find?_eq_some hm)
  have hid : stored.1.resultId = id := by simpa using List.find?_some hx
  have hmid : m.manifestId = stored.1.manifestId := by simpa using List.find?_some hm
  have hfound := (h.keyed hd).resultEvidence (h.result_kept (List.mem_of_find?_eq_some hx)) hm'
    (hmove.manifestId.trans hmid)
  rw [hid, hmove.sha256, hsha] at hfound
  exact hfound

theorem Db.Keyed.durable (hd : d.Keyed) {r : Run} {m : Manifest} (hr : r ∈ d.runs)
    (hm : m ∈ d.manifests) (hid : m.runId = r.runId) (howner : m.ownerId = r.ownerId) :
    d.durable r.runId r.ownerId = some (r, m) := by
  have hfound := hd.manifestOf hm
  rw [hid] at hfound
  simp [Db.durable, hd.ownRun hr, hfound, howner]

theorem durable_some {runId ownerId : Uuid} {r : Run} {m : Manifest}
    (h : d.durable runId ownerId = some (r, m)) :
    r ∈ d.runs ∧ m ∈ d.manifests ∧ r.runId = runId ∧ r.ownerId = ownerId ∧ m.runId = runId ∧
      m.ownerId = ownerId := by
  obtain ⟨hown, mf, hmf, h1, h2, -, rfl⟩ := durable_evidence h
  obtain ⟨hr, hid, howner⟩ := ownRun_some hown
  exact ⟨hr, hmf, hid, howner, h1, h2⟩

/-- the row of the inbox stays. -/
theorem Change.inboxHolds (h : Change C K w k d d') {messageId : Uuid} {subject : Subject}
    {key : InboxKey} (hh : d.inboxHolds messageId subject key = true) :
    d'.inboxHolds messageId subject key = true := by
  obtain ⟨row, hrow, he⟩ := inboxHolds_iff.mp hh
  refine inboxHolds_iff.mpr ⟨row, ?_, he⟩
  rcases h.inbox with heq | ⟨more, heq, -⟩
  · rwa [heq]
  · rw [heq]
    exact List.mem_append_left _ hrow

theorem Change.ended (h : Change C K w k d d') (hd : d.Keyed) {fact : RecapFailed}
    (he : d.Ended fact) : d'.Ended fact := by
  obtain ⟨r, m, hdu, hs⟩ := he
  obtain ⟨hr, hm, h1, h2, h3, h4⟩ := durable_some hdu
  obtain ⟨r', hr', hmove⟩ := h.run_kept hd.runs hr
  obtain ⟨m', hm', hmm⟩ := h.manifest_kept hm
  refine ⟨r', m', ?_, (hmove.terminal (by rw [hs]; rfl)).trans hs⟩
  have hfound := (h.keyed hd).durable hr' hm'
    (hmm.runId.trans (h3.trans (hmove.runId.trans h1).symm))
    (hmm.ownerId.trans (h4.trans (hmove.ownerId.trans h2).symm))
  rwa [hmove.runId, hmove.ownerId, h1, h2] at hfound

/-- **No change takes away what the handler knows a replay by.** -/
theorem Change.absorbs (h : Change C K w k d d') (hd : d.Keyed) {message : Message}
    (ha : d.Absorbs message) : d'.Absorbs message := by
  cases message with
  | command c => exact h.inboxHolds ha
  | completed id fact =>
    obtain ⟨analysisId, stored, incomplete, ha, he, hm⟩ := ha
    exact ⟨analysisId, stored, incomplete, ha, h.resultEvidence hd he, hm⟩
  | failed id fact => exact h.ended hd ha

/-! ## The flag of an ended run -/

/-- with one executor the flag of a run with a result that is no failure is final. -/
theorem Change.flag_final (h : Change C K w k d d') (hw : w ≠ .many) (hd : d.Joined)
    {x : DigestResult} (hx : x ∈ d.results) (ho : x.outcome ≠ .failed) :
    d'.incompleteFlag x.runId x.ownerId = d.incompleteFlag x.runId x.ownerId := by
  by_cases hk : k = .recorded
  · subst hk
    obtain ⟨r, hr, m, -, h1, h2, hs, -, -⟩ := hd.resultRun x hx
    have hd' := h.keyed hd.keyed
    have hstill : r ∈ d'.runs := by
      cases h with
      | @recorded _ runId incomplete _ hopen =>
        refine mem_updateWhere.mpr ⟨r, hr, .inr ⟨?_, rfl⟩⟩
        refine Bool.eq_false_iff.mpr fun he => ?_
        have hended := hopen hw r hr (of_decide_eq_true he)
        rw [hs] at hended
        revert hended ho
        cases x.outcome <;> decide
    unfold Db.incompleteFlag
    rw [← h1, ← h2, hd.keyed.ownRun hr, hd'.ownRun hstill]
  · exact h.incompleteFlag hk hd.keyed _ _

theorem matches_fields {fact : RecapCompleted} {analysisId : Uuid} {outcome : Outcome}
    {stored : DigestResult × Digest} (h : fact.matches analysisId outcome stored = true) :
    stored.1.runId = fact.digestRunId ∧ stored.1.ownerId = fact.owner ∧
      stored.1.outcome = outcome := by
  simp only [RecapCompleted.matches, Bool.and_eq_true, decide_eq_true_eq] at h
  exact ⟨h.1.1.1.1.1.1, h.1.1.1.1.1.2, h.1.2⟩

/-- the flag of the run of a kept completion is final. -/
theorem Change.kept_flag (h : Change C K w k d d') (hw : w ≠ .many) (hd : d.Joined)
    {fact : RecapCompleted} (hk : d.Keeps fact) :
    d'.incompleteFlag fact.digestRunId fact.owner =
      d.incompleteFlag fact.digestRunId fact.owner := by
  obtain ⟨analysisId, stored, incomplete, -, he, hm⟩ := hk
  obtain ⟨h1, h2, h3⟩ := matches_fields hm
  obtain ⟨m, hfind, -, -⟩ := resultEvidence_iff.mp he
  have hflag := h.flag_final hw hd (List.mem_of_find?_eq_some hfind)
    (h3 ▸ completionOutcome_ne_failed _ _)
  rwa [h1, h2] at hflag

/-- and so is whether the stored outcome agrees with it. -/
theorem Change.agrees_iff (h : Change C K w k d d') (hw : w ≠ .many) (hd : d.Joined)
    {fact : RecapCompleted} (hk : d.Keeps fact) : d'.Agrees fact ↔ d.Agrees fact := by
  have hflag := h.kept_flag hw hd hk
  obtain ⟨analysisId, stored, incomplete, -, he, -⟩ := hk
  unfold Db.Agrees
  rw [h.resultEvidence hd.keyed he, he, hflag]

/-! ## What an inbox row stands for -/

/-- what a handled fact leaves. -/
def Message.Stands (w : Crew) (d : Db) : Message → Prop
  | .command _ => True
  | .completed _ fact => fact.Stands w d
  | .failed _ fact => fact.Stands d

def Message.subject : Message → Subject
  | .command c => c.subject
  | .completed _ _ => .completed
  | .failed _ _ => .failed

/-- the key under which the inbox knows the message. -/
def Message.key : Message → InboxKey
  | .command c => .text c.semanticKey
  | .completed _ fact => .id fact.digestResultId
  | .failed _ fact => .id fact.digestRunId

/-- every row of the inbox is of a sent message, and facts with a row stand. -/
def Db.Entered (K : Message → Prop) (w : Crew) (d : Db) : Prop :=
  ∀ row ∈ d.inbox, ∃ message, K message ∧ message.messageId = row.messageId ∧
    message.subject = row.subject ∧ message.key = row.semanticKey ∧ message.Stands w d

theorem Message.Stands.change {message : Message} (h : message.Stands w d)
    (hc : Change C K w k d d') (hd : d.Keyed) : message.Stands w d' := by
  cases message with
  | command c => trivial
  | completed id fact => exact RecapCompleted.Stands.change h hc hd
  | failed id fact => exact RecapFailed.Stands.change h hc hd

/-- **Every change keeps the inbox entered.** -/
theorem Change.entered (h : Change C K w k d d') (hd : d.Keyed) (he : d.Entered K w) :
    d'.Entered K w := by
  -- the rows that were there, and a new one of a sent message that stands.
  have added : ∀ {row : InboxMessage} (message : Message), d'.inbox = d.inbox ++ [row] →
      K message → message.messageId = row.messageId → message.subject = row.subject →
      message.key = row.semanticKey → message.Stands w d' → d'.Entered K w := by
    intro row message hd' hk h1 h2 h3 h4 o ho
    rw [hd'] at ho
    rcases List.mem_append.mp ho with ho | ho
    · obtain ⟨message', hk', e1, e2, e3, e4⟩ := he o ho
      exact ⟨message', hk', e1, e2, e3, e4.change h hd⟩
    · obtain rfl := List.mem_singleton.mp ho
      exact ⟨message, hk, h1, h2, h3, h4⟩
  have same : Table.inbox ∉ k.writes → d'.Entered K w := fun ht o ho => by
    rw [show d'.inbox = d.inbox from h.frame .inbox ht] at ho
    obtain ⟨message, hk, e1, e2, e3, e4⟩ := he o ho
    exact ⟨message, hk, e1, e2, e3, e4.change h hd⟩
  have hc := h
  cases h with
  | subscription hk h =>
    obtain ⟨s, d₁, ob, -, -, heq⟩ := h.effect
    exact added _ (congrArg Db.inbox heq) hk rfl rfl rfl trivial
  | rejection hk _ h =>
    obtain ⟨ob, -, heq⟩ := h.effect
    exact added _ (congrArg Db.inbox heq) hk rfl rfl rfl trivial
  | created hk h =>
    obtain ⟨ob, -, heq⟩ := h.effect
    exact added _ (congrArg Db.inbox heq) hk rfl rfl rfl trivial
  | repeated hk h =>
    obtain ⟨ob, -, heq⟩ := h.effect
    exact added _ (congrArg Db.inbox heq) hk rfl rfl rfl trivial
  | occurrence hk h =>
    obtain ⟨runs, ob, -, -, heq⟩ := h.effect
    exact added _ (congrArg Db.inbox heq) hk rfl rfl rfl trivial
  | @completion m _ _ fact analysisId messageId sha incomplete run manifest hk ha h hflag =>
    have hstands : fact.Stands w d' := h.stands ha hd fun hw => (hflag hw).trans
      (hc.incompleteFlag (by decide) hd _ _).symm
    obtain ⟨ob, -, heq⟩ := h.effect
    exact added _ (congrArg Db.inbox heq) hk rfl rfl rfl hstands
  | recapFailure hk h =>
    have hstands := h.stands
    obtain ⟨ob, -, heq⟩ := h.effect
    exact added _ (congrArg Db.inbox heq) hk rfl rfl rfl hstands
  | _ => exact same (by decide)

/-- a row under the identity or the key of a sent message is of one that stands under its key. -/
theorem Db.Entered.known (he : d.Entered K w) (hids : MessageIds K) {message : Message}
    (hk : K message)
    (hheld : d.inboxHolds message.messageId message.subject message.key = true) :
    ∃ other : Message, other.subject = message.subject ∧ other.key = message.key ∧
      other.Stands w d := by
  obtain ⟨row, hrow, hrow'⟩ := inboxHolds_iff.mp hheld
  obtain ⟨other, hk', hid, hsub, hkey, hstands⟩ := he row hrow
  rcases hrow' with hown | ⟨hs, hkey'⟩
  · obtain rfl := hids _ _ hk' hk (hid.trans hown)
    exact ⟨other, rfl, rfl, hstands⟩
  · exact ⟨other, hsub.trans hs, hkey.trans hkey', hstands⟩

theorem Command.subject_ne (c : Command) : c.subject ≠ .completed ∧ c.subject ≠ .failed := by
  cases c with
  | unreadable _ kind _ _ => cases kind <;> exact ⟨nofun, nofun⟩
  | _ => exact ⟨nofun, nofun⟩

theorem Message.completed_of_subject {message : Message} (h : message.subject = .completed) :
    ∃ id fact, message = .completed id fact := by
  cases message with
  | command c => exact absurd h c.subject_ne.1
  | completed id fact => exact ⟨id, fact, rfl⟩
  | failed id fact => cases h

theorem Message.failed_of_subject {message : Message} (h : message.subject = .failed) :
    ∃ id fact, message = .failed id fact := by
  cases message with
  | command c => exact absurd h c.subject_ne.2
  | completed id fact => cases h
  | failed id fact => exact ⟨id, fact, rfl⟩

/-- a completion that stands is kept by a result. -/
theorem RecapCompleted.Stands.keeps {fact : RecapCompleted} (h : fact.Stands w d) (hd : d.Keyed) :
    d.Keeps fact := by
  obtain ⟨analysisId, incomplete, ha, -, run, hrun, manifest, hm, h1, h2, h3, h4, h5, h6, h7,
    createdAt, hx⟩ := h
  refine ⟨analysisId, _, incomplete, ha, hd.resultEvidence hx hm rfl, ?_⟩
  simp [RecapCompleted.matches, RecapCompleted.result, h5]

/-- the run of a failure that stands has failed. -/
theorem RecapFailed.Stands.ended {fact : RecapFailed} (h : fact.Stands d) (hd : d.Keyed) :
    d.Ended fact := by
  obtain ⟨resultId, run, hrun, manifest, hm, h1, h2, h3, h4, -, hs, -⟩ := h
  have hfound := hd.durable hrun hm (h3.trans h1.symm) (h4.trans h2.symm)
  rw [h1, h2] at hfound
  exact ⟨run, manifest, hfound, hs⟩

end

/-! ## The first acknowledgement -/

section
variable {C : Contracts} {K : Message → Prop} {w : Crew} {E : Type} {R : Db → Db → Prop}
  {env : E → (q : Question) → q.Answer → E → Prop} {s : Db} {e : E}

/-- the part of a delivery that calls the intake or the coordinator, and its last step when it
succeeds. -/
abbrev AbsorbedBy {ε : Type} (R : Db → Db → Prop) (env : E → (q : Question) → q.Answer → E → Prop)
    (message : Message) (p : Action ε IntakeOutcome) (s : Db) (e : E) : Prop :=
  Safe (S := service) R env (fun _ d' o => ∀ a, o = some (.ok a) → d'.Absorbs message) p
    (fun _ _ _ => True) s e

theorem holds_added {d d' : Db} {row : InboxMessage} (h : d'.inbox = d.inbox ++ [row]) :
    d'.inboxHolds row.messageId row.subject row.semanticKey = true :=
  inboxHolds_iff.mpr ⟨row, by rw [h]; exact List.mem_append_right _ List.mem_cons_self, .inl rfl⟩

theorem SubscriptionApplied.holds {m : Moment} {d d' : Db} {c : SubscriptionSetRequested}
    {messageId : Uuid} {sha : Digest} (h : SubscriptionApplied m d d' c messageId sha) :
    d'.inboxHolds messageId .subscription (.text c.idempotencyKey) = true := by
  obtain ⟨s, d₁, ob, -, -, heq⟩ := h.effect
  exact holds_added (congrArg Db.inbox heq)

theorem CommandRejected.holds {m : Moment} {d d' : Db} {r : Rejection}
    (h : CommandRejected m d d' r) :
    d'.inboxHolds r.messageId r.subject (.text r.semanticKey) = true := by
  obtain ⟨ob, -, heq⟩ := h.effect
  exact holds_added (congrArg Db.inbox heq)

theorem RunCreated.holds {m : Moment} {d d' : Db} {c : RunRequested} {messageId : Uuid}
    {sha : Digest} (h : RunCreated m d d' c messageId sha) :
    d'.inboxHolds messageId .run (.text c.idempotencyKey) = true := by
  obtain ⟨ob, -, heq⟩ := h.effect
  exact holds_added (congrArg Db.inbox heq)

theorem RunRepeated.holds {m : Moment} {d d' : Db} {c : RunRequested} {messageId : Uuid}
    {sha : Digest} (h : RunRepeated m d d' c messageId sha) :
    d'.inboxHolds messageId .run (.text c.idempotencyKey) = true := by
  obtain ⟨ob, -, heq⟩ := h.effect
  exact holds_added (congrArg Db.inbox heq)

theorem OccurrenceFanned.holds {m : Moment} {d d' : Db} {o : OccurrenceRequest}
    (h : OccurrenceFanned m d d' o) :
    d'.inboxHolds o.messageId .occurrence (.text o.occurrenceKey) = true := by
  obtain ⟨runs, ob, -, -, heq⟩ := h.effect
  exact holds_added (congrArg Db.inbox heq)

/-- the other tasks handle no message. -/
def Unattended (C : Contracts) (K : Message → Prop) (w : Crew) (R : Db → Db → Prop) : Prop :=
  ∀ {d d'}, R d d' → Evolves C K w (fun k => k.isDelivery = false) d d'

theorem Unattended.inbox {d d' : Db} (hq : Unattended C K w R) (h : R d d') :
    d'.inbox = d.inbox ∧ d'.results = d.results :=
  (hq h).keeps (I := fun x => x.inbox = d.inbox ∧ x.results = d.results) (fun {k a b} hk hc hI => by
    have hin : b.inbox = a.inbox := hc.frame .inbox (by cases k <;> first | decide | cases hk)
    have hre : b.results = a.results := hc.frame .results (by cases k <;> first | decide | cases hk)
    exact ⟨hin.trans hI.1, hre.trans hI.2⟩) ⟨rfl, rfl⟩

/-- a consistent completion is still one of its run when the transaction begins. -/
theorem Evolves.consistent {p : Kind → Prop} {d d' : Db} (h : Evolves C K w p d d')
    {fact : RecapCompleted} {r : Run} {mf : Manifest}
    (hdu : d.durable fact.digestRunId fact.owner = some (r, mf))
    (hcons : fact.consistent (r, mf) = true) :
    d'.evidence fact.digestRunId fact.owner fact.manifestDigest fact.countsAgree := by
  simp only [RecapCompleted.consistent, Bool.and_eq_true, decide_eq_true_eq] at hcons
  obtain ⟨-, m₀, hm₀, e1, e2, e3, rfl⟩ := durable_evidence hdu
  exact h.keeps (I := fun d =>
    d.evidence fact.digestRunId fact.owner fact.manifestDigest fact.countsAgree)
    (fun _ hc => hc.evidence RecapCompleted.countsAgree_moves)
    ⟨m₀, hm₀, e1, e2, hcons.1.1.2.symm, hcons.1.2, hcons.2⟩

/-- a completion without a result has no row in the inbox: the row was there at the reading, so that
the result would have been found. -/
theorem Unattended.no_row (hq : Unattended C K w R) (hids : MessageIds K) {a b : Db} (ha : a.Keyed)
    (he : a.Entered K w) (h : R a b) {messageId : Uuid} {fact : RecapCompleted}
    (hk : K (.completed messageId fact)) (hnone : a.resultEvidence fact.digestResultId = none) :
    b.inboxHolds messageId .completed (.id fact.digestResultId) = false := by
  refine Bool.eq_false_iff.mpr fun hheld => ?_
  have hbefore : a.inboxHolds messageId .completed (.id fact.digestResultId) = true := by
    obtain ⟨row, hrow, hrow'⟩ := inboxHolds_iff.mp hheld
    rw [(hq.inbox h).1] at hrow
    exact inboxHolds_iff.mpr ⟨row, hrow, hrow'⟩
  obtain ⟨other, hsub, hkey, hstands⟩ := he.known hids hk hbefore
  obtain ⟨id, fact', rfl⟩ := Message.completed_of_subject hsub
  obtain ⟨_, stored, _, -, hfound, -⟩ := RecapCompleted.Stands.keeps hstands ha
  rw [show fact'.digestResultId = fact.digestResultId by simpa [Message.key] using hkey,
    hnone] at hfound
  cases hfound

variable (x : Surrounds R env True)
include x

theorem reject_absorbs {c : Command} {sha : Digest} {reason : RejectionReason} :
    AbsorbedBy R env (.command c) (reject C (c.rejection sha reason)) s e :=
  reject_rule x (Q := fun _ _ => True) (fun _ _ _ _ => ⟨by simp, trivial⟩)
    (fun _ _ hheld => ⟨fun _ _ => hheld, trivial⟩) fun _ _ _ _ h => ⟨fun _ _ => h.holds, trivial⟩

theorem acceptSubscription_absorbs {messageId : Uuid} {payload : C.Bytes}
    {c : SubscriptionSetRequested} (hc : C.subscription.fromSlice payload = some c) :
    AbsorbedBy R env (.command (.subscription messageId c))
      (acceptSubscription C messageId payload) s e :=
  acceptSubscription_rule x hc (Q := fun _ _ => True) (fun _ _ => by simp)
    (fun _ _ _ _ => ⟨by simp, trivial⟩) (fun _ _ hheld => ⟨fun _ _ => hheld, trivial⟩)
    (fun _ _ _ _ _ h => ⟨fun _ _ => h.holds, trivial⟩)
    fun _ _ _ _ h => ⟨fun _ _ => h.holds, trivial⟩

theorem acceptRun_absorbs {messageId : Uuid} {payload : C.Bytes} {c : RunRequested}
    (hc : C.run.fromSlice payload = some c) :
    AbsorbedBy R env (.command (.run messageId c)) (acceptRun C messageId payload) s e :=
  acceptRun_rule x hc (Q := fun _ _ => True) (fun _ _ => by simp)
    (fun _ _ _ _ => ⟨by simp, trivial⟩) (fun _ _ hheld => ⟨fun _ _ => hheld, trivial⟩)
    (fun _ _ _ _ _ h => ⟨fun _ _ => h.holds, trivial⟩)
    fun _ _ _ _ h => ⟨fun _ _ => h.elim (·.holds) (·.holds), trivial⟩

theorem acceptOccurrence_absorbs {o : OccurrenceRequest} :
    AbsorbedBy R env (.command (.occurrence o)) (acceptOccurrence C o) s e :=
  acceptOccurrence_rule x (Q := fun _ _ => True) trivial (fun _ _ _ _ => ⟨by simp, trivial⟩)
    (fun _ _ hheld => ⟨fun _ _ => hheld, trivial⟩) fun _ _ _ _ h => ⟨fun _ _ => h.holds, trivial⟩

variable (hids : MessageIds K) (hq : Unattended C K w R) (hd : s.Keyed) (he : s.Entered K w)
include hids hq hd he

/-- with one delivery at a time a completion that is not stored has no row in the inbox. -/
theorem settleCompletion_absorbs {messageId : Uuid} {completion : C.Bytes} {fact : RecapCompleted}
    (hc : C.completed.fromSlice completion = some fact) (hk : K (.completed messageId fact)) :
    AbsorbedBy R env (.completed messageId fact) (settleCompletion C messageId completion) s e := by
  refine settleCompletion_rule x (Q := fun _ _ => True) trivial (fun _ _ _ => ⟨by simp, trivial⟩)
    (fun _ _ => by simp) ?_ ?_
  · intro fact' analysisId s₁ s₂ stored hf ha h₁ h₂ hev hm
    obtain rfl := Option.some.inj (hc.symm.trans hf)
    exact ⟨fun _ _ => ⟨analysisId, stored, _, ha, hev, hm⟩, trivial⟩
  · intro fact' analysisId m s₁ s₂ s₃ s₄ r mf hf ha h₁ h₂ h₃ h₄ hnone hdu hcons
    obtain rfl := Option.some.inj (hc.symm.trans hf)
    have hI₂ : s₂.Keyed ∧ s₂.Entered K w := (hq (x.trans h₁ h₂)).keeps
      (I := fun d => d.Keyed ∧ d.Entered K w)
      (fun _ hc hI => ⟨hc.keyed hI.1, hc.entered hI.1 hI.2⟩) ⟨hd, he⟩
    have hd₄ : s₄.Keyed := (hq (x.trans h₃ h₄)).keyed hI₂.1
    have hev := (hq h₄).consistent hdu hcons
    refine settleCompletionTx_closes hev (fun _ => ⟨by simp, trivial⟩) (fun hheld => ?_)
      fun d' run manifest hset => ⟨fun _ _ => ?_, trivial⟩
    · rw [hq.no_row hids hI₂.1 hI₂.2 (x.trans h₃ h₄) hk hnone] at hheld
      cases hheld
    · have hstands : fact.Stands .one d' := hset.stands ha hd₄ (by simp)
      refine hstands.keeps ?_
      have hchange : Change C K .one .completion s₄ d' := .completion hk ha hset (by simp)
      exact hchange.keyed hd₄

theorem settleFailure_absorbs {messageId : Uuid} {failure : C.Bytes} {fact : RecapFailed}
    (hc : C.failed.fromSlice failure = some fact) (hk : K (.failed messageId fact)) :
    AbsorbedBy R env (.failed messageId fact) (settleFailure C messageId failure) s e := by
  refine settleFailure_rule x (Q := fun _ _ => True) trivial (fun _ _ _ => ⟨by simp, trivial⟩)
    (fun _ _ => by simp) ?_ ?_
  · intro fact' s₁ r mf hf h₁ hdu hs
    obtain rfl := Option.some.inj (hc.symm.trans hf)
    exact ⟨fun _ _ => ⟨r, mf, hdu, hs⟩, trivial⟩
  · intro fact' m s₁ s₂ r mf hf h₁ h₂ hdu hs hsha
    obtain rfl := Option.some.inj (hc.symm.trans hf)
    have hI₂ : s₂.Keyed ∧ s₂.Entered K w := (hq (x.trans h₁ h₂)).keeps
      (I := fun d => d.Keyed ∧ d.Entered K w)
      (fun _ hc hI => ⟨hc.keyed hI.1, hc.entered hI.1 hI.2⟩) ⟨hd, he⟩
    obtain ⟨-, m₀, hm₀, e1, e2, e3, rfl⟩ := durable_evidence hdu
    have hev : s₂.evidence fact.digestRunId fact.owner fact.manifestDigest
        (·.manifestId = m₀.manifestId) :=
      (hq h₂).keeps (I := fun d => d.evidence fact.digestRunId fact.owner fact.manifestDigest
        (·.manifestId = m₀.manifestId))
        (fun _ hc => hc.evidence fun hmove h => hmove.manifestId.trans h)
        ⟨m₀, hm₀, e1, e2, hsha.symm, rfl⟩
    refine settleFailureTx_closes hev (fun _ => ⟨by simp, trivial⟩) (fun hheld => ?_)
      fun d' hset => ⟨fun _ _ => ?_, trivial⟩
    · obtain ⟨other, hsub, hkey, hstands⟩ := hI₂.2.known hids hk hheld
      obtain ⟨id, fact', rfl⟩ := Message.failed_of_subject hsub
      have hrunId : fact'.digestRunId = fact.digestRunId := by simpa [Message.key] using hkey
      obtain ⟨r₂, m₂, hdu₂, hs₂⟩ := RecapFailed.Stands.ended hstands hI₂.1
      obtain ⟨m₁, hm₁, e3, e4, -, -⟩ := hev
      obtain ⟨-, hm₂, -, -, e5, e6⟩ := durable_some hdu₂
      obtain rfl := hI₂.1.manifestRuns.eq hm₁ hm₂ (e3.trans (hrunId.symm.trans e5.symm))
      rw [hrunId, e6.symm.trans e4] at hdu₂
      exact ⟨fun _ _ => ⟨r₂, m₁, hdu₂, hs₂⟩, trivial⟩
    · have hchange : Change C K w .recapFailure s₂ d' := .recapFailure hk hset
      exact hset.stands.ended (hchange.keyed hI₂.1)

end

/-! ## Every acknowledged delivery -/

/-- the handlers refuse these without a statement. -/
def Message.valid (C : Contracts) : Message → Bool
  | .command (.occurrence o) => "schedule-occurrence:".toList.isPrefixOf o.occurrenceKey.toList
  | .completed _ fact => C.completed.validForPublish fact
  | .failed _ fact => C.failed.validForPublish fact
  | _ => true

/-- the message is valid, and the handler takes it for a replay. -/
def Db.Done (d : Db) (C : Contracts) (message : Message) : Prop :=
  message.valid C = true ∧ d.Absorbs message

theorem Change.done {C : Contracts} {K : Message → Prop} {w : Crew} {k : Kind} {d d' : Db}
    (h : Change C K w k d d') (hd : d.Keyed) {message : Message} (ha : d.Done C message) :
    d'.Done C message := ⟨ha.1, h.absorbs hd ha.2⟩

section
variable {C : Contracts} {K : Message → Prop} {w : Crew} {E : Type} {R : Db → Db → Prop}
  {env : E → (q : Question) → q.Answer → E → Prop} {s : Db} {e : E} {message : Message}

/-- a call that is acknowledged succeeded. -/
theorem AbsorbedBy.delivered {ε : Type} {p : Action ε IntakeOutcome}
    {f : Except ε IntakeOutcome → Delivery} (hf : ∀ r, ∃ x, f r = .done (.ok x) ∧
      (x = .ack → ∃ a, r = .ok a)) (hv : message.valid C = true)
    (h : AbsorbedBy R env message p s e) :
    Safe (S := service) R env (fun _ d' o => o = some (.ok .ack) → d'.Done C message) (p.next f)
      (fun _ _ _ => True) s e := by
  refine (safe_next (S := service) _ _ _).mpr
    (Safe.mono (fun _ _ => id) (fun _ _ _ _ => id) (fun d d' o ho => ?_) (fun r _ _ _ => ?_) h)
  · rcases o with _ | r
    · simp
    · obtain ⟨x, hx, hack⟩ := hf r
      intro he
      rw [Option.bind_some, hx] at he
      obtain ⟨a, rfl⟩ := hack (by cases he; rfl)
      exact ⟨hv, ho a rfl⟩
  · obtain ⟨x, hx, -⟩ := hf r
    rw [hx]
    trivial

theorem intake_answers (r : Except IntakeError IntakeOutcome) :
    ∃ x, (match r with
      | .ok _ => pure .ack
      | .error .invalid => pure .term
      | .error .storage => pure .nak : Delivery) = .done (.ok x) ∧ (x = .ack → ∃ a, r = .ok a) := by
  rcases r with (_ | _) | a
  · exact ⟨_, rfl, nofun⟩
  · exact ⟨_, rfl, nofun⟩
  · exact ⟨_, rfl, fun _ => ⟨a, rfl⟩⟩

theorem coordinator_answers (r : Except CoordinatorError IntakeOutcome) :
    ∃ x, (match r with
      | .ok _ => pure .ack
      | .error .invalid => pure .term
      | .error .storage => pure .nak : Delivery) = .done (.ok x) ∧ (x = .ack → ∃ a, r = .ok a) := by
  rcases r with (_ | _) | a
  · exact ⟨_, rfl, nofun⟩
  · exact ⟨_, rfl, nofun⟩
  · exact ⟨_, rfl, fun _ => ⟨a, rfl⟩⟩

/-- an invalid message is refused without a statement. -/
theorem served_invalid {p : Delivery} (hp : Serves C message p) (hv : message.valid C = false) :
    p = .done (.ok .term) := by
  cases hp with
  | subscription => cases hv
  | run => cases hv
  | unreadable => cases hv
  | @occurrence o =>
    have hv' : "schedule-occurrence:".toList.isPrefixOf o.occurrenceKey.toList = false := hv
    unfold coordinatorDisposition acceptOccurrence
    rw [hv']
    rfl
  | @completed messageId payload fact hf =>
    have hv' : C.completed.validForPublish fact = false := hv
    unfold coordinatorDisposition settleCompletion
    rw [hf]
    dsimp only
    rw [hv']
    rfl
  | @failed messageId payload fact hf =>
    have hv' : C.failed.validForPublish fact = false := hv
    unfold coordinatorDisposition settleFailure
    rw [hf]
    dsimp only
    rw [hv']
    rfl

/-- **An acknowledged message is absorbed** by the last step of its handling. -/
theorem served_absorbs (x : Surrounds R env True) (hids : MessageIds K) (hq : Unattended C K w R)
    (hd : s.Keyed) (he : s.Entered K w) (hk : K message) {p : Delivery} (hp : Serves C message p) :
    Safe (S := service) R env (fun _ d' o => o = some (.ok .ack) → d'.Done C message) p
      (fun _ _ _ => True) s e := by
  by_cases hv : message.valid C = true
  · cases hp with
    | subscription hc => exact (acceptSubscription_absorbs x hc).delivered intake_answers hv
    | run hc => exact (acceptRun_absorbs x hc).delivered intake_answers hv
    | @unreadable messageId kind sha operationId ownerId =>
      have h : AbsorbedBy R env (.command (.unreadable messageId kind operationId ownerId))
          (reject C ((Command.unreadable messageId kind operationId ownerId).rejection sha
            .commandInvalid)) s e := reject_absorbs x
      exact h.delivered intake_answers hv
    | occurrence => exact (acceptOccurrence_absorbs x).delivered coordinator_answers hv
    | completed hf =>
      exact (settleCompletion_absorbs x hids hq hd he hf hk).delivered coordinator_answers hv
    | failed hf =>
      exact (settleFailure_absorbs x hids hq hd he hf hk).delivered coordinator_answers hv
  · rw [served_invalid hp (by simpa using hv)]
    trivial

/-- an acknowledgement comes with an atomic step. -/
theorem message_decides {p : Delivery} (hp : Serves C message p) :
    Decides (S := service) (· = .ok .ack) p := by
  have coordinator : ∀ {p : Action CoordinatorError IntakeOutcome},
      Decides (S := service) (fun r => ∃ a, r = .ok a) p →
      Decides (S := service) (· = .ok .ack) (coordinatorDisposition p) := by
    intro p h
    unfold coordinatorDisposition
    refine (decides_next (S := service) p fun r => ?_).mpr (h.mono fun r hr => ?_)
    · obtain ⟨x, hx, -⟩ := coordinator_answers r
      exact ⟨_, hx⟩
    · obtain ⟨x, hx, hack⟩ := coordinator_answers r
      exact hack (by cases hr _ hx; rfl)
  cases hp with
  | @occurrence o =>
    refine coordinator ?_
    unfold acceptOccurrence
    split_ifs
    · exact nofun
    · exact fun _ _ => .inl ⟨_, rfl⟩
  | @completed messageId payload fact hf =>
    refine coordinator ?_
    unfold settleCompletion
    split
    · exact nofun
    split_ifs
    · exact nofun
    split
    · exact nofun
    refine decides_readDb fun incomplete => .inr (decides_readDb fun stored => ?_)
    rcases stored with _ | stored
    · refine .inr (decides_readDb fun durable => ?_)
      rcases durable with _ | durable
      · exact .inl ⟨_, rfl⟩
      · dsimp only
        split_ifs
        · exact .inl ⟨_, rfl⟩
        · exact .inr fun _ _ => .inl ⟨_, rfl⟩
    · dsimp only
      split_ifs <;> exact .inl ⟨_, rfl⟩
  | @failed messageId payload fact hf =>
    refine coordinator ?_
    unfold settleFailure
    split
    · exact nofun
    split_ifs
    · exact nofun
    refine decides_readDb fun durable => ?_
    rcases durable with _ | ⟨run, manifest⟩
    · exact .inl ⟨_, rfl⟩
    · dsimp only
      split_ifs
      · exact .inl ⟨_, rfl⟩
      · exact .inl ⟨_, rfl⟩
      · exact .inr fun _ _ => .inl ⟨_, rfl⟩
  | @subscription messageId payload c hc =>
    exact served_decides (c := .subscription messageId c) nofun (.subscription hc)
  | @run messageId payload c hc =>
    exact served_decides (c := .run messageId c) nofun (.run hc)
  | @unreadable messageId kind sha operationId ownerId =>
    refine served_decides (c := .unreadable messageId kind operationId ownerId) ?_ .unreadable
    cases kind <;> nofun

end

/-! ## A later delivery -/

/-- a stored result agrees with the completeness flag, if the message is a completion. -/
def Db.Affirms (d : Db) : Message → Prop
  | .completed _ fact => d.Agrees fact
  | _ => True

/-- a kept result agrees with the flag when it is the one that the completion would store now. -/
theorem Db.Keeps.agrees_iff {d : Db} {fact : RecapCompleted} {analysisId : Uuid}
    {stored : DigestResult × Digest} (hk : d.Keeps fact) (ha : fact.analysisRef = some analysisId)
    (he : d.resultEvidence fact.digestResultId = some stored) :
    d.Agrees fact ↔ fact.matches analysisId
      (completionOutcome fact.omittedCount (d.incompleteFlag fact.digestRunId fact.owner))
      stored = true := by
  obtain ⟨analysisId', stored', incomplete, ha', he', hm⟩ := hk
  obtain rfl := Option.some.inj (ha.symm.trans ha')
  obtain rfl := Option.some.inj (he.symm.trans he')
  have hagrees : d.Agrees fact ↔ stored.1.outcome =
      completionOutcome fact.omittedCount (d.incompleteFlag fact.digestRunId fact.owner) :=
    ⟨fun h => h stored he, fun h x hx => Option.some.inj (he.symm.trans hx) ▸ h⟩
  rw [hagrees]
  simp only [RecapCompleted.matches, Bool.and_eq_true, decide_eq_true_eq] at hm ⊢
  obtain ⟨⟨⟨⟨⟨⟨h1, h2⟩, h3⟩, h4⟩, h5⟩, -⟩, h7⟩ := hm
  exact ⟨fun h => ⟨⟨⟨⟨⟨⟨h1, h2⟩, h3⟩, h4⟩, h5⟩, h⟩, h7⟩, fun h => h.1.2⟩

section
variable {C : Contracts} {E : Type} {R : Db → Db → Prop}
  {env : E → (q : Question) → q.Answer → E → Prop} {s : Db} {e : E} {message : Message}

/-- no step changes the database, and the program ends with `a` when `A` holds and with `b` when it
does not. -/
abbrev AgainBy {ε α : Type} (R : Db → Db → Prop) (env : E → (q : Question) → q.Answer → E → Prop)
    (A : Prop) (a b : Except ε α) (p : Action ε α) (s : Db) (e : E) : Prop :=
  Safe (S := service) R env (always fun d d' => d' = d) p
    (fun r _ _ => A ∧ r = a ∨ ¬ A ∧ r = b) s e

/-- the message stays absorbed, and whether its outcome agrees with the flag stays as well. -/
structure Settled (R : Db → Db → Prop) (C : Contracts) (message : Message) (s : Db) : Prop where
  done : ∀ {s'}, R s s' → s'.Done C message
  affirms : ∀ {s'}, R s s' → (s'.Affirms message ↔ s.Affirms message)
  flag : ∀ {id fact}, message = .completed id fact → ∀ {s'}, R s s' →
    s'.incompleteFlag fact.digestRunId fact.owner = s.incompleteFlag fact.digestRunId fact.owner

/-- a command with a row in the inbox is not handled for the first time. -/
theorem Db.Absorbs.elim {d : Db} {c : Command} {G : Prop} (h : d.Absorbs (.command c))
    (hf : d.inboxHolds c.messageId c.subject (.text c.semanticKey) = false) : G := by
  have hheld : d.inboxHolds c.messageId c.subject (.text c.semanticKey) = true := h
  rw [hf] at hheld
  cases hheld

variable (x : Surrounds R env False) {A : Prop} (hA : A) {c : Command}
  (hheld : ∀ {s'}, R s s' → s'.Absorbs (.command c))
include x hA hheld

omit hA hheld

end

section
variable {C : Contracts} {E : Type} {R : Db → Db → Prop}
  {env : E → (q : Question) → q.Answer → E → Prop} {s : Db} {e : E} {message : Message}

theorem AgainBy.next {ε ε' α β : Type} {A : Prop} {a b : Except ε α} {a' b' : Except ε' β}
    {p : Action ε α} {f : Except ε α → Action ε' β} (ha : f a = .done a') (hb : f b = .done b')
    (h : AgainBy R env A a b p s e) : AgainBy R env A a' b' (p.next f) s e := by
  refine (safe_next (S := service) _ _ _).mpr
    (Safe.mono (fun _ _ => id) (fun _ _ _ _ => id) (fun _ _ _ ho => ho) (fun r _ _ hr => ?_) h)
  rcases hr with ⟨hA, rfl⟩ | ⟨hA, rfl⟩
  · rw [ha]
    exact .inl ⟨hA, rfl⟩
  · rw [hb]
    exact .inr ⟨hA, rfl⟩

end

/-! ## Every run of the worker -/

section
variable {C : Contracts} {K : Message → Prop} {w : Crew} {k : Kind} {p : Kind → Prop} {d d' : Db}
  {message : Message}

theorem Change.affirms (h : Change C K w k d d') (hw : w ≠ .many) (hd : d.Joined)
    (ha : d.Done C message) : d'.Affirms message ↔ d.Affirms message := by
  cases message with
  | completed id fact => exact h.agrees_iff hw hd ha.2
  | _ => exact Iff.rfl

/-- what the others change does not take a message back. -/
theorem Evolves.settled (h : Evolves C K w p d d') (hw : w ≠ .many) (hd : d.Joined)
    (ha : d.Done C message) :
    (d'.Joined ∧ d'.Done C message) ∧ (d'.Affirms message ↔ d.Affirms message) ∧
      ∀ {id fact}, message = .completed id fact →
        d'.incompleteFlag fact.digestRunId fact.owner =
          d.incompleteFlag fact.digestRunId fact.owner := by
  refine h.keeps (I := fun x => (x.Joined ∧ x.Done C message) ∧
    (x.Affirms message ↔ d.Affirms message) ∧ ∀ {id fact}, message = .completed id fact →
      x.incompleteFlag fact.digestRunId fact.owner =
        d.incompleteFlag fact.digestRunId fact.owner) (fun _ hc hI => ?_)
    ⟨⟨hd, ha⟩, Iff.rfl, fun _ => rfl⟩
  obtain ⟨⟨hj, hdone⟩, haff, hflag⟩ := hI
  refine ⟨⟨hc.joined hj, hc.done hj.keyed hdone⟩, (hc.affirms hw hj hdone).trans haff, ?_⟩
  rintro id fact rfl
  exact (hc.kept_flag hw hj hdone.2).trans (hflag rfl)

end

section
variable {C : Contracts} {S : Setting}

/-- the task delivers the message. -/
def Task.Carries (language : OutputLanguage) (message : Message) : Task C → Prop
  | .deliver _ transport bytes => received C language transport bytes = some message
  | _ => False

/-- the acknowledgement of a message. -/
def Task.Acks (language : OutputLanguage) (t : Task C) (r : Except Empty Ending) : Prop :=
  (∃ message, t.Carries language message) ∧ r = .ok (.disposition .ack)

theorem carried_decides (t : Task C) :
    Decides (S := service) (t.Acks S.language) ((worker C S).body t) := by
  cases t with
  | deliver calm transport bytes =>
    rcases hm : received C S.language transport bytes with _ | message
    · refine (decides_never (S := service) _).mono fun r hr => ?_
      obtain ⟨⟨message, hc⟩, -⟩ := hr
      cases hm.symm.trans hc
    · have hserve := handle_serves (C := C) S.language transport bytes
      rw [hm] at hserve
      refine (decides_map (S := service) _ _).mpr ((message_decides hserve).mono fun r hr => ?_)
      obtain ⟨-, hr⟩ := hr
      rcases r with x | a
      · cases x
      · cases hr
        rfl
  | _ => exact (decides_never (S := service) _).mono fun r hr => hr.1.elim fun _ hc => hc

theorem Setting.quiet {t : Task C} (hs : S.serial) (ht : t.isDelivery = true) :
    Unattended C S.sent S.crew (S.Others C t) := fun h => Evolves.mono h fun _ hk => hk.2 hs ht

theorem delivery_absorbs (hids : MessageIds S.sent) (hs : S.serial)
    {ts : List (Thread service (Task C) Empty Ending)} {t : Task C} {d : Db}
    (hstart : (worker C S).starts ts t) (hd : d.Keyed) (he : d.Entered S.sent S.crew) :
    Safe (S := service) (S.Others C t) ((worker C S).env t)
      (fun _ d' o => ∀ message, t.Carries S.language message →
        o = some (.ok (.disposition .ack)) → d'.Done C message) ((worker C S).body t)
      (fun _ _ _ => True) d () := by
  have x : Surrounds (S.Others C t) ((worker C S).env t) True :=
    Setting.Others.surrounds fun _ _ _ _ _ => trivial
  by_cases h : ∃ message, t.Carries S.language message
  · cases t with
    | deliver calm transport bytes =>
      obtain ⟨message, hm⟩ := h
      have hserve := handle_serves (C := C) S.language transport bytes
      rw [show received C S.language transport bytes = some message from hm] at hserve
      refine safe_ending.mpr (Safe.mono (fun _ _ => id) (fun _ _ _ _ => id)
        (fun d d' o ho message' hm' hack => ?_) (fun _ _ _ _ => trivial)
        (served_absorbs x hids (Setting.quiet hs rfl) hd he (hstart.1 _ hm) hserve))
      obtain rfl : message = message' := Option.some.inj (Eq.trans (Eq.symm hm) hm')
      refine ho ?_
      rcases o with _ | (y | a)
      · cases hack
      · cases y
      · cases hack
        rfl
    | _ => exact h.elim fun _ hc => hc.elim
  · exact Safe.mono (fun _ _ => id) (fun _ _ _ _ => id)
      (fun _ _ _ _ message hm _ => absurd ⟨message, hm⟩ h) (fun _ _ _ => id)
      (safe_trivial ((worker C S).body t) d ())

/-- a message stays settled while the others work. -/
theorem Setting.settled {t : Task C} {d : Db} {message : Message} (hw : S.crew ≠ .many)
    (hd : d.Joined) (ha : d.Done C message) : Settled (S.Others C t) C message d where
  done h := (Evolves.settled h hw hd ha).1.2
  affirms h := (Evolves.settled h hw hd ha).2.1
  flag hm _ h := (Evolves.settled h hw hd ha).2.2 hm

/-- the invariant of the inbox, beside that of the keys. -/
def inboxDiscipline (C : Contracts) (S : Setting) : Discipline (worker C S) :=
  (discipline C S).maintain (I := fun d => d.Joined ∧ d.Entered S.sent S.crew)
    fun {t d d' o} _ hg hI => by
      rcases hg.1 with rfl | ⟨k, -, hc⟩
      · exact hI
      · exact ⟨hc.joined hI.1, hc.entered hI.1.keyed hI.2⟩

theorem Db.Entered.empty {K : Message → Prop} {w : Crew} : Db.empty.Entered K w :=
  fun _ h => absurd h List.not_mem_nil

end

namespace Sample

theorem setting_ids {crew : Crew} {serial : Prop} : MessageIds (setting crew serial).sent := by
  intro m m' hm hm'
  have hids : (messages.map (·.messageId)).Nodup := by decide
  exact List.inj_on_of_nodup_map hids hm hm'

/-- the envelope of the completion. -/
def completionPacket : contracts.Bytes :=
  .event ⟨103, Subject.completed.contractType, knowledgeProducer, some 7, .completed fact⟩

/-- a delivery of it. -/
def completing : Task contracts := .deliver true Subject.completed.transport completionPacket

/-- the pool after the day. -/
def dayOne : Pool service (Task contracts) Empty Ending :=
  Pool.play (worker contracts (setting .one True)) day ⟨[], Db.empty⟩

/-- the completion is checked, and is about to be stored. -/
def examined : Pool service (Task contracts) Empty Ending :=
  Pool.play (worker contracts (setting .one True))
    [.start completing, .run 3 7 (answers 8 4000 page)] dayOne

/-- the pool after the last step of the delivery. -/
def stored : Pool service (Task contracts) Empty Ending :=
  Pool.turn (worker contracts (setting .one True)) examined (.run 3 1 (answers 9 5000 page))

/-- the pool with the same delivery once more. -/
def repeating : Pool service (Task contracts) Empty Ending :=
  Pool.turn (worker contracts (setting .one True)) stored (.start completing)

/-- and after it. -/
def repeated : Pool service (Task contracts) Empty Ending :=
  Pool.turn (worker contracts (setting .one True)) repeating (.run 4 100 (answers 10 6000 page))

end Sample

end ChannelDigests
