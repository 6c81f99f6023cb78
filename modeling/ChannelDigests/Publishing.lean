import ChannelDigests.Lib.Dialogue
import ChannelDigests.Documents

/-!
# Publish passes

Publish passes over one outbox, one after the other, each cut wherever it is cut, with the
transactions of the others in between.  The ledger holds what the broker answered and when the
database answered, in order.

* `Note`, `broker`      the entries of the ledger, and who writes them;
* `Recorded`            what a pass writes after the last entries of the ledger;
* `Bystands`            what the others may do to an outbox whose rows all wrap;
* `publishRows_obeys`   the loop of a pass: what it sends, what it records, how it ends;
* `Publishing`          any number of passes;
* `outbox_exact`        **nothing acknowledged is lost and nothing recorded is sent again**.
-/

namespace ChannelDigests
open Lib Prog

/-! ## The ledger -/

/-- the start of a pass, or an answer that it was given: a moment of the database, a lost statement,
or what the broker said to a message. -/
inductive Note where
  | begun
  | moment (now : Instant)
  | lost
  | sent (message : OutboundMessage) (acked : Bool)

abbrev Ledger := List Note

/-- the answers, as they are noted; a statement of its own is lost when no statement succeeds. -/
def broker (log : Ledger) (q : Question) (a : q.Answer) (log' : Ledger) : Prop :=
  match q, a with
  | .moment, m => log' = log ++ [if m.fuse = some 0 then .lost else .moment m.now]
  | .publish message, acked => log' = log ++ [.sent message acked]
  | _, _ => log' = log

/-- the row that a publish of the message is recorded in. -/
def OutboundMessage.names (message : OutboundMessage) (r : OutboxMessage) : Bool :=
  r.outboxId = message.messageId && r.publishedAt.isNone

/-- the database after the answer of the broker is recorded. -/
def settleSent (message : OutboundMessage) (acked : Bool) (now : Instant) (d : Db) : Db :=
  { d with
    outbox := updateWhere message.names
      (if acked then OutboxMessage.publish now else OutboxMessage.backOff now) d.outbox }

/-- a write of a pass: what the broker said last is recorded once the database has answered, and
nothing else is written. -/
structure Recorded (log : Ledger) (d d' : Db) : Prop where
  sent : ∀ before message acked now, log = before ++ [.sent message acked, .moment now] →
    d' = settleSent message acked now d
  other : (∀ before message acked now, log ≠ before ++ [.sent message acked, .moment now]) → d' = d

theorem recorded_sent (before : Ledger) (message : OutboundMessage) (acked : Bool) (now : Instant)
    (d : Db) : Recorded (before ++ [.sent message acked, .moment now]) d
      (settleSent message acked now d) where
  sent before' message' acked' now' h := by
    have hl := (List.append_inj' h rfl).2
    simp only [List.cons.injEq, Note.sent.injEq, Note.moment.injEq, and_true] at hl
    obtain ⟨⟨rfl, rfl⟩, rfl⟩ := hl
    rfl
  other h := absurd rfl (h before message acked now)

theorem recorded_lost (log : Ledger) (d : Db) : Recorded (log ++ [.lost]) d d where
  sent before message acked now h := by
    rw [show before ++ [Note.sent message acked, .moment now] =
      (before ++ [Note.sent message acked]) ++ [.moment now] by simp] at h
    exact absurd (List.append_inj' h rfl).2 (by simp)
  other _ := rfl

theorem recorded_begun (log : Ledger) (now : Instant) (d : Db) :
    Recorded (log ++ [.begun] ++ [.moment now]) d d where
  sent before message acked now' h := by
    rw [List.append_assoc] at h
    exact absurd (List.append_inj' h rfl).2 (by simp)
  other _ := rfl

/-- the entries of rows that were sent and recorded. -/
def sentLog (entries : List (OutboundMessage × Bool × Instant)) : Ledger :=
  entries.flatMap fun x => [.sent x.1 x.2.1, .moment x.2.2]

/-! ## The others -/

/-- the identities of the outbox are unique and its rows wrap. -/
structure Db.Publishable (C : Contracts) (d : Db) : Prop where
  ids : KeyUnique (·.outboxId) d.outbox
  wraps : ∀ row ∈ d.outbox, (wrapOutboxRow C row).isSome = true

/-- no row is published that was not, and the outbox stays publishable. -/
structure Bystands (C : Contracts) (d d' : Db) : Prop where
  published : ∀ row ∈ d'.outbox, row.publishedAt ≠ none → row ∈ d.outbox
  publishable : d.Publishable C → d'.Publishable C

section
variable {C : Contracts} {K : Message → Prop} {w : Crew}

theorem Bystands.refl (d : Db) : Bystands C d d := ⟨fun _ h _ => h, id⟩

theorem Bystands.trans {a b c : Db} (h : Bystands C a b) (h' : Bystands C b c) : Bystands C a c :=
  ⟨fun row hr hp => h.published row (h'.published row hr hp) hp,
    fun ha => h'.publishable (h.publishable ha)⟩

/-- a queued row is not published. -/
theorem offered_published {rows rows' : List OutboxMessage} {row : OutboxMessage}
    (h : Offered rows row rows') (hrow : row.publishedAt = none) :
    ∀ r ∈ rows', r.publishedAt ≠ none → r ∈ rows := by
  intro r hr hp
  rcases h with ⟨rfl, -⟩ | ⟨rfl, -, -⟩
  · exact hr
  · rcases List.mem_append.mp hr with hr | hr
    · exact hr
    · rw [List.mem_singleton.mp hr] at hp
      exact absurd hrow hp

theorem offeredAll_published {rows rows' more : List OutboxMessage} (h : OfferedAll rows more rows')
    (hmore : ∀ r ∈ more, r.publishedAt = none) :
    ∀ r ∈ rows', r.publishedAt ≠ none → r ∈ rows := by
  induction more generalizing rows with
  | nil => exact fun r hr _ => (show rows' = rows from h) ▸ hr
  | cons row more ih =>
    obtain ⟨mid, hmid, hrest⟩ := h
    have hrow := hmore row List.mem_cons_self
    intro r hr hp
    exact offered_published hmid hrow r
      (ih hrest (fun r hr => hmore r (List.mem_cons_of_mem _ hr)) r hr hp) hp

theorem offeredOwned_published {rows rows' : List OutboxMessage} {owned : Option Uuid}
    {report : Uuid → OperationReportRow} {id : Uuid} {now : Instant}
    (h : OfferedOwned rows owned report id now rows') :
    ∀ r ∈ rows', r.publishedAt ≠ none → r ∈ rows := by
  cases owned with
  | none => exact fun r hr _ => (show rows' = rows from h) ▸ hr
  | some operation => exact offered_published h rfl

theorem reapedReports_published (m : Moment) (runs : List Run) (n : Nat) :
    ∀ r ∈ reapedReports m runs n, r.publishedAt = none := by
  induction runs generalizing n with
  | nil => exact fun r hr => by cases hr
  | cons run runs ih =>
    intro r hr
    rcases List.mem_append.mp hr with hr | hr
    · split_ifs at hr
      · rw [List.mem_singleton.mp hr]
        rfl
      · cases hr
    · exact ih _ r hr

/-- **Only publishing publishes a row.** -/
theorem Change.published_origin {k : Kind} {d d' : Db} (h : Change C K w k d d') (hk : k ≠ .published) :
    ∀ row ∈ d'.outbox, row.publishedAt ≠ none → row ∈ d.outbox := by
  have hf := h.frame .outbox
  have hrun : ∀ {m c messageId ob}, OfferedQueued m c messageId d.outbox ob →
      ∀ row ∈ ob, row.publishedAt ≠ none → row ∈ d.outbox := fun h => by
    unfold OfferedQueued at h
    split_ifs at h
    · exact offered_published h rfl
    · rw [h]
      exact fun _ hr _ => hr
  cases h with
  | subscription _ h =>
    obtain ⟨s, d₁, ob, -, hob, rfl⟩ := h.effect
    exact offered_published hob rfl
  | rejection _ _ h =>
    obtain ⟨ob, hob, rfl⟩ := h.effect
    exact offered_published hob rfl
  | created _ h =>
    obtain ⟨ob, hob, rfl⟩ := h.effect
    exact hrun hob
  | repeated _ h =>
    obtain ⟨ob, hob, rfl⟩ := h.effect
    exact hrun hob
  | occurrence _ h =>
    obtain ⟨runs, ob, -, hob, rfl⟩ := h.effect
    exact offered_published hob rfl
  | acquiring h =>
    obtain ⟨ob, hob, rfl⟩ := h.effect
    exact offeredOwned_published hob
  | empty h =>
    obtain ⟨ob, hob, rfl⟩ := h.effect
    exact offeredOwned_published hob
  | failed h =>
    obtain ⟨ob, hob, rfl⟩ := h.effect
    exact offeredOwned_published hob
  | manifest h _ =>
    have hob : Offered d.outbox _ d'.outbox :=
      .inr ⟨by rw [h.effect], h.newKey, h.newOutboxId⟩
    exact offered_published hob rfl
  | completion _ _ h _ =>
    obtain ⟨ob, hob, rfl⟩ := h.effect
    exact offeredOwned_published hob
  | recapFailure _ h =>
    obtain ⟨ob, hob, rfl⟩ := h.effect
    exact offeredOwned_published hob
  | reaped h =>
    obtain ⟨ob, hob, rfl⟩ := h.effect
    exact offeredAll_published hob (reapedReports_published _ _ _)
  | published => exact absurd rfl hk
  | backedOff => exact absurd rfl hk
  | registration hrow h =>
    unfold Db.upsertRegistration at h
    split_ifs at h
    · cases h
      intro r hr hp
      obtain ⟨o, ho, ⟨-, rfl⟩ | ⟨-, rfl⟩⟩ := mem_updateWhere.mp hr
      · exact absurd rfl hp
      · exact ho
    · cases h
      intro r hr hp
      rcases List.mem_append.mp hr with hr | hr
      · exact hr
      · rw [List.mem_singleton.mp hr, hrow] at hp
        exact absurd rfl hp
  | _ =>
    rw [hf (by decide)]
    exact fun _ hr _ => hr

/-- the transactions of the others, which leave the outbox publishable. -/
def Meanwhile (C : Contracts) (K : Message → Prop) (w : Crew) (d d' : Db) : Prop :=
  Evolves C K w (· ≠ .published) d d' ∧ (d.Publishable C → d'.Publishable C)

theorem Meanwhile.refl (d : Db) : Meanwhile C K w d d := ⟨.refl, id⟩

theorem Meanwhile.trans {a b c : Db} (h : Meanwhile C K w a b) (h' : Meanwhile C K w b c) :
    Meanwhile C K w a c := ⟨h.1.trans h'.1, fun ha => h'.2 (h.2 ha)⟩

theorem Meanwhile.bystands {d d' : Db} (h : Meanwhile C K w d d') : Bystands C d d' := by
  obtain ⟨hx, hpub⟩ := h
  refine ⟨?_, hpub⟩
  clear hpub
  induction hx with
  | refl => exact fun _ hr _ => hr
  | tail _ hc ih =>
    obtain ⟨k, hk, hc⟩ := hc
    exact fun row hr hp => ih row (hc.published_origin hk row hr hp) hp

theorem wrapOutboxRow_messageId {row : OutboxMessage} {message : OutboundMessage}
    (h : wrapOutboxRow C row = some message) : message.messageId = row.outboxId := by
  unfold wrapOutboxRow at h
  dsimp only at h
  split at h
  · split_ifs at h
    cases h
    rfl
  · split_ifs at h
    cases h
    rfl
  · split_ifs at h
    cases h
    rfl
  · cases h

/-! ## One pass -/

/-- no row that is still to be sent is published. -/
def Unsent (rows : List OutboxMessage) (d : Db) : Prop :=
  ∀ row ∈ d.outbox, row.publishedAt ≠ none → ∀ r ∈ rows, row.outboxId ≠ r.outboxId

theorem Unsent.bystands {rows : List OutboxMessage} {d d' : Db} (h : Unsent rows d)
    (hb : Bystands C d d') : Unsent rows d' :=
  fun row hr hp => h row (hb.published row hr hp) hp

/-- a row that names the message is not published. -/
def quietly (d : Db) (_ : Ledger) : Question → Prop
  | .publish message => ∀ row ∈ d.outbox, row.outboxId = message.messageId → row.publishedAt = none
  | _ => True

/-- the program of a pass: it sends no published row, and writes what it was answered. -/
abbrev Publishes {ε α : Type} (C : Contracts) (K : Message → Prop) (w : Crew) (p : Action ε α)
    (Q : Except ε α → Db → Ledger → Prop) (d : Db) (log : Ledger) : Prop :=
  Obeys (S := service) (Meanwhile C K w) broker quietly Recorded p Q d log

/-- one statement of a pass. -/
theorem publishes_statement {α : Type} {x : BusError} {f : Moment → Db → Db} {g : Moment → Db → α}
    {Q : Except BusError α → Db → Ledger → Prop} {d : Db} {log : Ledger}
    (hlost : ∀ d', Meanwhile C K w d d' → Q (.error x) d' (log ++ [.lost]))
    (h : ∀ (m : Moment) d', Meanwhile C K w d d' →
      Recorded (log ++ [.moment m.now]) d' (f m d') ∧
        Q (.ok (g m d')) (f m d') (log ++ [.moment m.now])) :
    Publishes C K w (statement fun m => .change x (f m) (g m)) Q d log := by
  intro d₁ h₁
  refine ⟨trivial, fun m log' hlog d₂ h₂ => ?_⟩
  have hd := h₁.trans h₂
  change log' = log ++ [if m.fuse = some 0 then Note.lost else Note.moment m.now] at hlog
  rcases hm : m.fuse with _ | _ | n
  · obtain rfl : log' = log ++ [.moment m.now] := by rw [hlog, hm]; rfl
    exact h m d₂ hd
  · obtain rfl : log' = log ++ [.lost] := by rw [hlog, hm]; rfl
    exact ⟨recorded_lost log d₂, hlost d₂ hd⟩
  · obtain rfl : log' = log ++ [.moment m.now] := by rw [hlog, hm]; rfl
    exact h m d₂ hd

theorem settleSent_unsent {rows : List OutboxMessage} {row : OutboxMessage}
    {message : OutboundMessage} (acked : Bool) (now : Instant) {d : Db} (h : Unsent (row :: rows) d) (hid : message.messageId = row.outboxId)
    (hnew : ∀ r ∈ rows, r.outboxId ≠ row.outboxId) : Unsent rows (settleSent message acked now d) := by
  intro r' hr' hp r hr
  obtain ⟨o, ho, ⟨hn, rfl⟩ | ⟨-, rfl⟩⟩ := mem_updateWhere.mp hr'
  · have hoid : o.outboxId = row.outboxId := by
      simp only [OutboundMessage.names, Bool.and_eq_true, decide_eq_true_eq] at hn
      exact hn.1.trans hid
    cases acked with
    | true => exact fun he => hnew r hr (he.symm.trans hoid)
    | false => exact fun he => hnew r hr (he.symm.trans hoid)
  · exact h r' ho hp r (List.mem_cons_of_mem _ hr)

/-- how the loop over rows ends: every row was sent and recorded, or a record was lost. -/
def RowsDone (C : Contracts) (log : Ledger) (rows : List OutboxMessage) (refused : Bool)
    (r : Except BusError Bool) (log' : Ledger) : Prop :=
  (∃ entries, entries.map (fun x => some x.1) = rows.map (wrapOutboxRow C) ∧
    log' = log ++ sentLog entries ∧ r = .ok (refused || entries.any fun x => !x.2.1)) ∨
  ∃ entries message acked, log' = log ++ sentLog entries ++ [.sent message acked, .lost] ∧
    r = .error .unavailable

theorem RowsDone.cons {log : Ledger} {row : OutboxMessage} {rows : List OutboxMessage}
    {refused acked : Bool} {message : OutboundMessage} {now : Instant} {r : Except BusError Bool}
    {log' : Ledger} (hwrap : wrapOutboxRow C row = some message)
    (h : RowsDone C (log ++ [.sent message acked, .moment now]) rows (refused || !acked) r log') :
    RowsDone C log (row :: rows) refused r log' := by
  rcases h with ⟨entries, hrows, hlog, hr⟩ | ⟨entries, message', acked', hlog, hr⟩
  · refine .inl ⟨(message, acked, now) :: entries, ?_, ?_, ?_⟩
    · rw [List.map_cons, List.map_cons, hrows, hwrap]
    · rw [hlog, sentLog, sentLog, List.flatMap_cons, List.append_assoc]
    · rw [hr, List.any_cons, Bool.or_assoc]
  · refine .inr ⟨(message, acked, now) :: entries, message', acked', ?_, hr⟩
    rw [hlog, sentLog, sentLog, List.flatMap_cons]
    simp only [List.append_assoc]

/-- **The loop of a pass** sends each row once, whatever the broker answers to the others. -/
theorem publishRows_obeys (rows : List OutboxMessage) (refused : Bool) {d : Db} {log : Ledger}
    (hwraps : ∀ r ∈ rows, (wrapOutboxRow C r).isSome = true)
    (hids : rows.Pairwise fun a b => b.outboxId ≠ a.outboxId) (hunsent : Unsent rows d) :
    Publishes C K w (publishRows C rows refused) (fun r _ log' => RowsDone C log rows refused r log')
      d log := by
  induction rows generalizing d log refused with
  | nil => exact .inl ⟨[], rfl, (List.append_nil log).symm, by simp⟩
  | cons row rows ih =>
    obtain ⟨message, hwrap⟩ := Option.isSome_iff_exists.mp (hwraps row List.mem_cons_self)
    have hid : message.messageId = row.outboxId := wrapOutboxRow_messageId hwrap
    obtain ⟨hnew, hids⟩ := List.pairwise_cons.mp hids
    have hrest := fun r hr => hwraps r (List.mem_cons_of_mem row hr)
    unfold publishRows
    rw [hwrap]
    intro d₁ h₁
    have hunsent₁ := hunsent.bystands h₁.bystands
    refine ⟨fun r hr he => ?_, fun acked log₁ hlog₁ => ?_⟩
    · by_contra hp
      exact hunsent₁ r hr hp row List.mem_cons_self (he.trans hid)
    · change log₁ = log ++ [.sent message acked] at hlog₁
      have hupdate : ∀ (u : Instant → OutboxMessage → OutboxMessage),
          (∀ now, u now = if acked then OutboxMessage.publish now else OutboxMessage.backOff now) →
          Publishes C K w (updateOutbox row.outboxId u >>= fun _ => publishRows C rows (refused || !acked))
            (fun r _ log' => RowsDone C log (row :: rows) refused r log') d₁ log₁ := by
        intro u hu
        have hset : ∀ now d', settleSent message acked now d' = { d' with
            outbox := updateWhere (fun r => r.outboxId = row.outboxId && r.publishedAt.isNone)
              (u now) d'.outbox } := fun now d' => by
          unfold settleSent OutboundMessage.names
          rw [hid, hu]
        refine (obeys_bind (S := service) _ _).mpr (publishes_statement (fun d' _ => ?_)
          fun m d' h' => ⟨?_, ?_⟩)
        · exact .inr ⟨[], message, acked, by rw [hlog₁]; simp [sentLog], rfl⟩
        · rw [hlog₁, List.append_assoc, ← hset]
          exact recorded_sent log message acked m.now d'
        · have hnext : Publishes C K w (publishRows C rows (refused || !acked))
              (fun r _ log' => RowsDone C (log₁ ++ [.moment m.now]) rows (refused || !acked) r log')
              (settleSent message acked m.now d') (log₁ ++ [.moment m.now]) :=
            ih _ hrest hids (settleSent_unsent acked m.now (hunsent₁.bystands h'.bystands) hid hnew)
          rw [hset] at hnext
          refine Obeys.imp (fun r s log' h => ?_) hnext
          rw [hlog₁, List.append_assoc] at h
          exact h.cons hwrap
      cases acked with
      | true =>
        have h := hupdate OutboxMessage.publish fun _ => rfl
        rwa [show (refused || !true) = refused by simp] at h
      | false =>
        have h := hupdate OutboxMessage.backOff fun _ => rfl
        rwa [show (refused || !false) = true by simp] at h

/-- how a pass ends: its only read was lost, or the loop over the rows it read ended. -/
def PassDone (C : Contracts) (K : Message → Prop) (w : Crew) (d : Db) (log : Ledger)
    (r : Except BusError Unit) (log' : Ledger) : Prop :=
  (log' = log ++ [.lost] ∧ r = .error .unavailable) ∨
  ∃ now seen done, Meanwhile C K w d seen ∧
    RowsDone C (log ++ [.moment now]) (seen.dueRows now) false done log' ∧
    r = match done with
      | .ok true => .error .unacknowledged
      | .ok false => .ok ()
      | .error x => .error x

theorem mem_dueRows {d : Db} {now : Instant} {r : OutboxMessage} (h : r ∈ d.dueRows now) :
    r ∈ d.outbox ∧ r.publishedAt = none := by
  have hmem := (List.mem_insertionSort _).mp (List.mem_of_mem_take h)
  obtain ⟨hr, hp⟩ := List.mem_filter.mp hmem
  exact ⟨hr, by simpa using (Bool.and_eq_true_iff.mp hp).1⟩

/-- the rows of a pass have different identities. -/
theorem dueRows_ids {d : Db} (h : KeyUnique (·.outboxId) d.outbox) (now : Instant) :
    (d.dueRows now).Pairwise fun a b => b.outboxId ≠ a.outboxId := by
  have hnodup : ((d.dueRows now).map (·.outboxId)).Nodup := by
    unfold Db.dueRows
    rw [List.map_take]
    refine List.Nodup.sublist (List.take_sublist _ _) ?_
    refine ((List.perm_insertionSort _ _).map _).nodup_iff.mpr ?_
    exact List.Nodup.sublist (List.filter_sublist.map _) h
  exact (List.pairwise_map.mp hnodup).imp fun h he => h he.symm

/-- **A whole pass.** -/
theorem publishOutbox_obeys {d : Db} (hd : d.Publishable C) (log : Ledger) :
    Publishes C K w (publishOutbox C)
      (fun r _ log' => PassDone C K w d (log ++ [.begun]) r log') d (log ++ [.begun]) := by
  refine (obeys_bind (S := service) _ _).mpr (publishes_statement (f := fun _ d => d)
    (fun _ _ => .inl ⟨rfl, rfl⟩) fun m seen hseen => ⟨recorded_begun log m.now seen, ?_⟩)
  have hp := hseen.2 hd
  have hunsent : Unsent (seen.dueRows m.now) seen := fun row hrow hpub r hr he => by
    obtain rfl := hp.ids.eq hrow (mem_dueRows hr).1 he
    exact hpub (mem_dueRows hr).2
  have hrows : Publishes C K w (publishRows C (seen.dueRows m.now) false)
      (fun r _ log' => RowsDone C (log ++ [.begun] ++ [.moment m.now]) (seen.dueRows m.now) false
        r log') seen (log ++ [.begun] ++ [.moment m.now]) :=
    publishRows_obeys _ _ (fun r hr => hp.wraps r (mem_dueRows hr).1) (dueRows_ids hp.ids m.now)
      hunsent
  refine (obeys_bind (S := service) _ _).mpr (Obeys.imp (fun done s log' h => ?_) hrows)
  rcases done with x | _ | _
  · exact .inr ⟨m.now, seen, _, hseen, h, rfl⟩
  · exact .inr ⟨m.now, seen, _, hseen, h, rfl⟩
  · exact .inr ⟨m.now, seen, _, hseen, h, rfl⟩

/-! ## Any number of passes -/

/-- passes one after the other, each cut anywhere, with the others in between. -/
inductive Publishing (C : Contracts) (K : Message → Prop) (w : Crew) (d₀ : Db) :
    Db → Ledger → Prop where
  | start : Publishing C K w d₀ d₀ []
  | meanwhile {d d' log} : Publishing C K w d₀ d log → Meanwhile C K w d d' →
      Publishing C K w d₀ d' log
  | pass {d log p d' log'} : Publishing C K w d₀ d log →
      Exec (S := service) (Meanwhile C K w) broker (publishOutbox C, d, log ++ [.begun])
        (p, d', log') → Publishing C K w d₀ d' log'

/-- a published row was published at the start, or the broker acknowledged it. -/
def Acknowledged (d₀ d : Db) (log : Ledger) : Prop :=
  ∀ row ∈ d.outbox, row.publishedAt ≠ none →
    row ∈ d₀.outbox ∨ ∃ message, .sent message true ∈ log ∧ message.messageId = row.outboxId

theorem settleSent_publishable {d : Db} (hd : d.Publishable C) (message : OutboundMessage)
    (acked : Bool) (now : Instant) : (settleSent message acked now d).Publishable C := by
  refine ⟨hd.ids.update fun r _ => by cases acked <;> rfl, fun row hrow => ?_⟩
  obtain ⟨o, ho, ⟨-, rfl⟩ | ⟨-, rfl⟩⟩ := mem_updateWhere.mp hrow
  · cases acked with
    | true => exact hd.wraps o ho
    | false => exact hd.wraps o ho
  · exact hd.wraps row ho

theorem Acknowledged.settleSent {d₀ d : Db} {before : Ledger} {message : OutboundMessage}
    {acked : Bool} {now : Instant}
    (h : Acknowledged d₀ d (before ++ [.sent message acked, .moment now])) :
    Acknowledged d₀ (settleSent message acked now d)
      (before ++ [.sent message acked, .moment now]) := by
  intro row hrow hp
  obtain ⟨o, ho, ⟨hn, rfl⟩ | ⟨-, rfl⟩⟩ := mem_updateWhere.mp hrow
  · simp only [OutboundMessage.names, Bool.and_eq_true, decide_eq_true_eq,
      Option.isNone_iff_eq_none] at hn
    cases acked with
    | true => exact .inr ⟨message, by simp, hn.1.symm⟩
    | false => exact absurd hn.2 hp
  · exact h row ho hp

/-- what passes keep: the outbox stays publishable, and what is published was acknowledged. -/
theorem pass_keeps {d₀ d d' : Db} {log log' : Ledger} {p : Action BusError Unit}
    (hd : d.Publishable C) (hack : Acknowledged d₀ d log)
    (hx : Exec (S := service) (Meanwhile C K w) broker (publishOutbox C, d, log ++ [.begun])
      (p, d', log')) : d'.Publishable C ∧ Acknowledged d₀ d' log' := by
  have hlog : ∀ {d : Db} {log more : Ledger}, Acknowledged d₀ d log →
      Acknowledged d₀ d (log ++ more) := fun h row hr hp =>
    (h row hr hp).imp_right fun ⟨message, hm, hid⟩ => ⟨message, List.mem_append_left _ hm, hid⟩
  refine Obeys.holds (S := service) (J := fun d log => d.Publishable C ∧ Acknowledged d₀ d log)
    (c := (publishOutbox C, d, log ++ [.begun])) (d := (p, d', log')) Meanwhile.refl Meanwhile.trans
    (publishOutbox_obeys hd log) ⟨hd, hlog hack⟩ ?_ ?_ ?_ hx
  · rintro s s' e hm ⟨hs, ha⟩
    exact ⟨hm.2 hs, fun row hr hp => ha row (hm.bystands.published row hr hp) hp⟩
  · rintro s e q a e' he ⟨hs, ha⟩
    refine ⟨hs, ?_⟩
    cases q with
    | moment => rw [show e' = _ from he]; exact hlog ha
    | resolve username => rw [show e' = e from he]; exact ha
    | fetch channel before limit => rw [show e' = e from he]; exact ha
    | publish message => rw [show e' = _ from he]; exact hlog ha
  · rintro e s s' hg ⟨hs, ha⟩
    by_cases h : ∃ before message acked now, e = before ++ [.sent message acked, .moment now]
    · obtain ⟨before, message, acked, now, rfl⟩ := h
      rw [hg.sent _ _ _ _ rfl]
      exact ⟨settleSent_publishable hs message acked now, ha.settleSent⟩
    · push Not at h
      rw [hg.other h]
      exact ⟨hs, ha⟩

theorem Publishing.keeps {d₀ d : Db} {log : Ledger} (hd : d₀.Publishable C)
    (h : Publishing C K w d₀ d log) : d.Publishable C ∧ Acknowledged d₀ d log := by
  induction h with
  | start => exact ⟨hd, fun row hr _ => .inl hr⟩
  | meanwhile _ hm ih =>
    exact ⟨hm.2 ih.1, fun row hr hp => ih.2 row (hm.bystands.published row hr hp) hp⟩
  | pass _ hx ih => exact pass_keeps ih.1 ih.2 hx

/-! ## What holds of every pass -/

/-- the row after the answer of the broker: published, or pending and due within five minutes. -/
def RowSettled (acked : Bool) (now : Instant) (row row' : OutboxMessage) : Prop :=
  row'.outboxId = row.outboxId ∧ row'.attempts = row.attempts + 1 ∧
    if acked then row'.publishedAt = some now
    else row'.publishedAt = none ∧ now < row'.nextAttemptAt ∧
      row'.nextAttemptAt ≤ now + 300 * second

theorem backOff_due (row : OutboxMessage) (now : Instant) :
    now < (row.backOff now).nextAttemptAt ∧ (row.backOff now).nextAttemptAt ≤ now + 300 * second := by
  have hpos : 0 < Nat.pow 2 (min row.attempts 8) := Nat.pow_pos (by decide)
  dsimp only [OutboxMessage.backOff]
  generalize Nat.pow 2 (min row.attempts 8) = n at hpos
  have hwait : ∀ t : Int, t < t + ((min 300 n : Nat) : Int) * 1000000 ∧
      t + ((min 300 n : Nat) : Int) * 1000000 ≤ t + 300 * 1000000 := fun t => by omega
  exact hwait now

theorem settleSent_row {d : Db} {message : OutboundMessage} {row : OutboxMessage} (acked : Bool)
    (now : Instant) (hrow : row ∈ d.outbox) (hn : message.names row = true) :
    ∃ row' ∈ (settleSent message acked now d).outbox, RowSettled acked now row row' := by
  have hpending : row.publishedAt = none := by
    simp only [OutboundMessage.names, Bool.and_eq_true, Option.isNone_iff_eq_none] at hn
    exact hn.2
  have hmem : ∀ u : OutboxMessage → OutboxMessage,
      u row ∈ updateWhere message.names u d.outbox := fun u =>
    mem_updateWhere.mpr ⟨row, hrow, .inl ⟨hn, rfl⟩⟩
  cases acked with
  | true => exact ⟨row.publish now, hmem (OutboxMessage.publish now), rfl, rfl, rfl⟩
  | false =>
    exact ⟨row.backOff now, hmem (OutboxMessage.backOff now), rfl, rfl, hpending, backOff_due row now⟩

/-- what holds of a pass that began in `d` after `log`, wherever it stands. -/
structure PassExact (C : Contracts) (K : Message → Prop) (w : Crew) (d : Db) (log : Ledger)
    (p : Action BusError Unit) (d' : Db) (log' : Ledger) : Prop where
  /-- a published row is not sent. -/
  asks : ∀ message k, p = .ask (.publish message) k →
    ∀ row ∈ d'.outbox, row.outboxId = message.messageId → row.publishedAt = none
  /-- the answer of the broker is recorded in the row that was sent, and in no other row. -/
  records : ∀ f k before message acked now, p = .act f k →
    log' = before ++ [.sent message acked, .moment now] →
    (∀ row ∈ d'.outbox, message.names row = true →
      ∃ row' ∈ (f d').outbox, RowSettled acked now row row') ∧
    ∀ row ∈ d'.outbox, message.names row = false → row ∈ (f d').outbox
  /-- nothing else is written. -/
  quiet : ∀ f k, p = .act f k →
    (∀ before message acked now, log' ≠ before ++ [.sent message acked, .moment now]) → f d' = d'
  /-- a pass that ends says whether a row was refused or a statement lost; otherwise it sent and
  recorded every row that was due. -/
  ends : ∀ r, p = .done r → ∃ new, log' = log ++ [.begun] ++ new ∧
    ((∃ x, r = .error x) ↔ .lost ∈ new ∨ ∃ message, .sent message false ∈ new) ∧
    (.lost ∉ new → ∃ now seen entries, Meanwhile C K w d seen ∧
      new = [.moment now] ++ sentLog entries ∧
      entries.map (fun x => some x.1) = (seen.dueRows now).map (wrapOutboxRow C))

theorem mem_sentLog {entries : List (OutboundMessage × Bool × Instant)} :
    .lost ∉ sentLog entries ∧ ∀ message acked,
      Note.sent message acked ∈ sentLog entries ↔ ∃ x ∈ entries, x.1 = message ∧ x.2.1 = acked := by
  constructor
  · simp [sentLog]
  · intro message acked
    simp only [sentLog, List.mem_flatMap, List.mem_cons, Note.sent.injEq, List.not_mem_nil, or_false,
      reduceCtorEq]
    exact exists_congr fun x => and_congr_right fun _ => and_congr eq_comm eq_comm

/-- the last entries of a pass say how it ended. -/
theorem PassDone.ends {d : Db} {log log' : Ledger} {r : Except BusError Unit}
    (h : PassDone C K w d log r log') : ∃ new, log' = log ++ new ∧
    ((∃ x, r = .error x) ↔ .lost ∈ new ∨ ∃ message, .sent message false ∈ new) ∧
    (.lost ∉ new → ∃ now seen entries, Meanwhile C K w d seen ∧
      new = [.moment now] ++ sentLog entries ∧
      entries.map (fun x => some x.1) = (seen.dueRows now).map (wrapOutboxRow C)) := by
  rcases h with ⟨rfl, rfl⟩ | ⟨now, seen, done, hseen, hrows, rfl⟩
  · exact ⟨[.lost], rfl, by simp, by simp⟩
  rcases hrows with ⟨entries, hmap, rfl, rfl⟩ | ⟨entries, message, acked, rfl, rfl⟩
  · refine ⟨[.moment now] ++ sentLog entries, by simp, ?_,
      fun _ => ⟨now, seen, entries, hseen, rfl, hmap⟩⟩
    have hrefused : (∃ message, Note.sent message false ∈ [.moment now] ++ sentLog entries) ↔
        (entries.any fun x => !x.2.1) = true := by
      simp only [List.mem_append, List.mem_singleton, reduceCtorEq, false_or, mem_sentLog.2,
        List.any_eq_true, Bool.not_eq_true']
      exact ⟨fun ⟨_, x, hx, _, ha⟩ => ⟨x, hx, ha⟩, fun ⟨x, hx, ha⟩ => ⟨x.1, x, hx, rfl, ha⟩⟩
    rw [hrefused, Bool.false_or]
    have hlost : Note.lost ∉ [.moment now] ++ sentLog entries := by simp [mem_sentLog.1]
    cases entries.any fun x => !x.2.1 with
    | true => simp
    | false => simp [mem_sentLog.1]
  · refine ⟨[.moment now] ++ sentLog entries ++ [.sent message acked, .lost], by simp, ?_, ?_⟩
    · simp
    · exact fun h => absurd (by simp) h

/-- **The outbox loses nothing and repeats nothing that was recorded**, over any number of passes
that are cut anywhere: what is published was acknowledged under its identity, no published row is
sent, a refused row stays pending with a later attempt, and a pass that ends sent every row that was
due and fails exactly when a row was refused or a statement was lost. -/
theorem outbox_exact {d₀ d : Db} {log : Ledger} (hd : d₀.Publishable C)
    (h : Publishing C K w d₀ d log) :
    (∀ row ∈ d.outbox, row.publishedAt ≠ none →
      row ∈ d₀.outbox ∨ ∃ message, .sent message true ∈ log ∧ message.messageId = row.outboxId) ∧
    ∀ p d' log', Exec (S := service) (Meanwhile C K w) broker
      (publishOutbox C, d, log ++ [.begun]) (p, d', log') → PassExact C K w d log p d' log' := by
  obtain ⟨hp, hack⟩ := h.keeps hd
  refine ⟨hack, fun p d' log' hx => ?_⟩
  obtain ⟨s, hs, hobeys, heq⟩ := Obeys.exec (S := service)
    (c := (publishOutbox C, d, log ++ [.begun])) (d := (p, d', log')) Meanwhile.refl Meanwhile.trans
    (publishOutbox_obeys hp log) hx
  refine ⟨?_, ?_, ?_, ?_⟩
  · rintro message k rfl
    obtain rfl := heq rfl
    exact (hobeys _ (Meanwhile.refl _)).1
  · rintro f k before message acked now rfl rfl
    obtain rfl := heq rfl
    have hf := (hobeys _ (Meanwhile.refl _)).1.sent before message acked now rfl
    refine ⟨fun row hrow hn => ?_, fun row hrow hn => ?_⟩
    · rw [hf]
      exact settleSent_row acked now hrow hn
    · rw [hf]
      exact mem_updateWhere.mpr ⟨row, hrow, .inr ⟨hn, rfl⟩⟩
  · rintro f k rfl hlog
    obtain rfl := heq rfl
    exact (hobeys _ (Meanwhile.refl _)).1.other hlog
  · rintro r rfl
    exact PassDone.ends hobeys

end

namespace Sample

/-- the broker refuses every other row. -/
def halfAcked (n : Nat) (q : Question) : q.Answer :=
  match q with
  | .publish _ => n % 2 = 0
  | q => answers 9 6000 page n q

/-- the answers as the ledger notes them. -/
def noted (n : Nat) (q : Question) (log : Ledger) : Ledger :=
  match q with
  | .moment => log ++ [.moment 9]
  | .publish message => log ++ [.sent message (n % 2 = 0)]
  | _ => log

/-- a pass over the outbox of the settled day. -/
def sending : Action BusError Unit × Db × Ledger :=
  Prog.travel (S := service) halfAcked noted 100 (publishOutbox contracts, settled, [] ++ [.begun])

theorem settled_publishable : settled.Publishable contracts :=
  ⟨by unfold KeyUnique; decide +kernel, by decide +kernel⟩

theorem sending_exec {K : Message → Prop} {w : Crew} :
    Exec (S := service) (Meanwhile contracts K w) broker
      (publishOutbox contracts, settled, [] ++ [.begun]) sending := by
  refine (travel_exec (K := fun _ _ => True) (fun _ _ _ => trivial) (fun i q e _ => ⟨?_, trivial⟩)
    100 _ _ _ trivial).1
  cases q with
  | moment => rfl
  | resolve username => rfl
  | fetch channel before limit => rfl
  | publish message => rfl

end Sample

theorem settled_pass_exact : Sample.settled.Publishable Sample.contracts ∧
    Sample.sending.1.answer? = some (.error .unacknowledged) ∧
    Sample.sending.2.1.outbox.map (·.publishedAt) = [none, some 9, some 9, none, none] ∧
    ∀ row ∈ Sample.sending.2.1.outbox, row.publishedAt ≠ none → row ∈ Sample.settled.outbox ∨
      ∃ message, .sent message true ∈ Sample.sending.2.2 ∧ message.messageId = row.outboxId :=
  ⟨Sample.settled_publishable, by decide +kernel, by decide +kernel,
    (outbox_exact Sample.settled_publishable
      (.pass (K := fun _ => True) (w := .one) .start Sample.sending_exec)).1⟩

end ChannelDigests
