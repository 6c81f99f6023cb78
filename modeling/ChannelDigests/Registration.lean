import ChannelDigests.Documents
import Mathlib.Data.List.Sort

/-!
# The schedule that Platform holds

Starts of the worker, each with a schedule, and publish passes in any order.  The broker answers
every publish as it likes, and Platform holds the registration that was acknowledged last.

* `ScheduleConfig.key_inj`   the key of a configuration determines its registration;
* `Platform.answers`         the clock and the broker;
* `PassProof`                what a pass keeps when each of its rows does; `PassProof.publishes`;
* `Db.Leads`                 the row of the configuration leads the registrations of the outbox;
* `Course`                   starts and passes; `Pass.InOrder` is the condition on a pass;
* `platform_current`         **when every pass is in order and no registration is pending, the
                             last acknowledged registration is that of the last configuration**;
* `older_registration_last`  a refused registration is acknowledged after the one that replaced it.
-/

namespace ChannelDigests
open Lib Prog

/-! ## The key of a configuration -/

/-- two lists that agree up to the first `x` agree before and after it. -/
theorem cut_at_first {α : Type} {x : α} {l l' r r' : List α} (hl : x ∉ l) (hl' : x ∉ l')
    (h : l ++ x :: r = l' ++ x :: r') : l = l' ∧ r = r' := by
  induction l generalizing l' with
  | nil =>
    cases l' with
    | nil => exact ⟨rfl, (List.cons.inj h).2⟩
    | cons y l' => exact absurd ((List.cons.inj h).1 ▸ List.mem_cons_self) hl'
  | cons y l ih =>
    cases l' with
    | nil => exact absurd ((List.cons.inj h).1 ▸ List.mem_cons_self) hl
    | cons z l' =>
      obtain ⟨hyz, htail⟩ := List.cons.inj h
      obtain ⟨hll', hrr'⟩ := ih (fun hx => hl (List.mem_cons_of_mem _ hx))
        (fun hx => hl' (List.mem_cons_of_mem _ hx)) htail
      rw [hyz, hll']
      exact ⟨rfl, hrr'⟩

theorem bar_not_in_repr (n : Nat) : '|' ∉ (toString n).toList := by
  intro h
  rw [show (toString n).toList = Nat.toDigits 10 n from Nat.toList_repr] at h
  have hdigit : '|'.isDigit = true := Nat.isDigit_of_mem_toDigits (by omega) (by omega) h
  exact absurd hdigit (by decide)

theorem bar_not_in_flag (b : Bool) : '|' ∉ (toString b).toList.reverse := by
  cases b <;> decide

theorem ScheduleConfig.key_toList (s : ScheduleConfig) :
    (s!"{s.ownerUserId}|{s.cronExpression}|{s.enabled}").toList =
      (toString s.ownerUserId).toList ++
        '|' :: (s.cronExpression.toList ++ '|' :: (toString s.enabled).toList) := by
  show (toString s.ownerUserId ++ "|" ++ s.cronExpression ++ "|" ++ toString s.enabled).toList = _
  rw [String.toList_append, String.toList_append, String.toList_append, String.toList_append,
    List.append_assoc, List.append_assoc, List.append_assoc]
  rfl

/-- **The key of a configuration determines its registration.** -/
theorem ScheduleConfig.key_inj {C : Contracts} (hC : Function.Injective C.textDigest)
    {a b : ScheduleConfig} (h : a.key C = b.key C) : a.registration = b.registration := by
  have htext := hC (OutboxKey.registration.inj h)
  have hlist := congrArg String.toList htext
  rw [a.key_toList, b.key_toList] at hlist
  obtain ⟨howner, hrest⟩ := cut_at_first (bar_not_in_repr _) (bar_not_in_repr _) hlist
  have hback := congrArg List.reverse hrest
  rw [List.reverse_append, List.reverse_append, List.reverse_cons, List.reverse_cons,
    List.append_assoc, List.append_assoc] at hback
  obtain ⟨hflag, hcron⟩ := cut_at_first (bar_not_in_flag _) (bar_not_in_flag _) hback
  have h₁ : a.ownerUserId = b.ownerUserId := by
    rw [show (toString a.ownerUserId).toList = Nat.toDigits 10 a.ownerUserId from Nat.toList_repr,
      show (toString b.ownerUserId).toList = Nat.toDigits 10 b.ownerUserId from Nat.toList_repr]
      at howner
    have := congrArg (fun l => Nat.ofDigitChars 10 l 0) howner
    simpa only [Nat.ofDigitChars_ten_toDigits] using this
  have h₂ : a.cronExpression = b.cronExpression :=
    String.toList_inj.mp (List.reverse_injective hcron)
  have h₃ : toString a.enabled = toString b.enabled :=
    String.toList_inj.mp (List.reverse_injective hflag)
  have h₄ : a.enabled = b.enabled := by
    revert h₃
    cases a.enabled <;> cases b.enabled <;> decide
  unfold ScheduleConfig.registration
  rw [h₁, h₂, h₄]

/-! ## Platform, the clock and the broker -/

/-- the last moment that the worker saw, and the registrations that the broker acknowledged. -/
structure Platform where
  last : Instant ×ₗ Uuid
  acked : List ScheduleRegistration

/-- Platform receives a payload. -/
def Platform.receive (p : Platform) : OutboxPayload → Platform
  | .registration r => { p with acked := p.acked ++ [r] }
  | _ => p

/-- the clock and the identities go on together; the broker acknowledges what it likes. -/
def Platform.answers (p : Platform) : (q : Question) → q.Answer → Platform → Prop
  | .moment, m, p' => p.last < toLex (m.now, m.ids 0) ∧
    p' = { p with last := toLex (m.now, m.ids 0) }
  | .publish message, acked, p' => p' = if acked then p.receive message.payload else p
  | _, _, p' => p' = p

/-- the place of a row in the outbox. -/
def OutboxMessage.rank (r : OutboxMessage) : Instant ×ₗ Uuid := toLex (r.createdAt, r.outboxId)

/-- what a pass leaves of a row. -/
def OutboxMessage.face (r : OutboxMessage) : Uuid × OutboxKey × OutboxPayload × Instant :=
  (r.outboxId, r.key, r.payload, r.createdAt)

/-- the rows after one row was sent. -/
def Db.sent (d : Db) (row : OutboxMessage) (u : OutboxMessage → OutboxMessage) : Db :=
  { d with
    outbox := updateWhere (fun r => r.outboxId = row.outboxId && r.publishedAt.isNone) u d.outbox }

section
variable {C : Contracts} {d : Db} {p : Platform} {row : OutboxMessage} {message : OutboundMessage}

/-- an envelope carries the payload of its row, which is a registration when the row is one. -/
theorem wrapOutboxRow_payload (h : wrapOutboxRow C row = some message) :
    message.payload = row.payload ∧
      (row.key.isRegistration = true ↔ ∃ r, row.payload = .registration r) := by
  unfold wrapOutboxRow at h
  dsimp only at h
  split at h
  · next hk hp =>
    split_ifs at h
    cases h
    exact ⟨rfl, by simp [hk, hp, OutboxKey.isRegistration]⟩
  · next hk hp =>
    split_ifs at h
    cases h
    exact ⟨rfl, by simp [hk, hp, OutboxKey.isRegistration]⟩
  · next hk hp =>
    split_ifs at h
    cases h
    exact ⟨rfl, by simp [hk, hp, OutboxKey.isRegistration]⟩
  · cases h

/-- what every sent row keeps, with the rows that are still to be sent: the broker acknowledges the
row or refuses it, and the statement that records its answer may be lost. -/
structure PassProof (C : Contracts) (J : List OutboxMessage → Db → Platform → Prop) : Prop where
  waits : ∀ {rows d p t}, J rows d p → p.last < t → J rows d { p with last := t }
  acked : ∀ {row rows d p}, J (row :: rows) d p → (wrapOutboxRow C row).isSome = true →
    J rows d (p.receive row.payload) ∧
      ∀ now, J rows (d.sent row (OutboxMessage.publish now)) (p.receive row.payload)
  refused : ∀ {row rows d p}, J (row :: rows) d p → (wrapOutboxRow C row).isSome = true →
    J rows d p ∧ ∀ now, J rows (d.sent row (OutboxMessage.backOff now)) p

variable {J : List OutboxMessage → Db → Platform → Prop}

theorem updateOutbox_safe (row : OutboxMessage) {u : Instant → OutboxMessage → OutboxMessage} {Q : Db → Platform → Prop}
    (hlost : ∀ t, p.last < t → Q d { p with last := t })
    (hsent : ∀ t now, p.last < t → Q (d.sent row (u now)) { p with last := t }) :
    Safe (S := service) Eq Platform.answers (always fun _ _ => True)
      (updateOutbox row.outboxId u) (fun _ d' p' => Q d' p') d p := by
  refine safe_transaction (alone _) ?_
  intro m d' p' hm hd
  obtain ⟨hlast, rfl⟩ := hm
  subst hd
  exact ⟨fun _ => ⟨trivial, hlost _ hlast⟩, trivial, hsent _ m.now hlast⟩

/-- the loop of a pass. -/
theorem PassProof.rows (P : PassProof C J) (rows : List OutboxMessage) (refused : Bool)
    (h : J rows d p) :
    Safe (S := service) Eq Platform.answers (always fun _ _ => True) (publishRows C rows refused)
      (fun _ d' p' => ∃ rest, J rest d' p') d p := by
  induction rows generalizing d p refused with
  | nil => exact ⟨[], h⟩
  | cons row rows ih =>
    unfold publishRows
    rcases hwrap : wrapOutboxRow C row with _ | message
    · exact ⟨_, h⟩
    have hsome : (wrapOutboxRow C row).isSome = true := by rw [hwrap]; rfl
    refine (safe_bind (S := service) _ _ _).mpr ?_
    intro d' hd acked p' hp
    subst hd
    rcases acked with _ | _
    · obtain rfl : p' = p := hp
      refine (safe_bind (S := service) _ _ _).mpr ?_
      refine Safe.imp (fun r d' p' hr => ?_) (updateOutbox_safe row
        (Q := fun d' p' => J rows d' p')
        (fun t ht => P.waits (P.refused h hsome).1 ht)
        (fun t now ht => P.waits ((P.refused h hsome).2 now) ht))
      cases r with
      | ok _ => exact ih true hr
      | error _ => exact ⟨rows, hr⟩
    · have hp' : p' = p.receive row.payload := by
        rw [← (wrapOutboxRow_payload hwrap).1]
        exact hp
      subst hp'
      refine (safe_bind (S := service) _ _ _).mpr ?_
      have hlast : (p.receive row.payload).last = p.last := by
        cases row.payload <;> rfl
      refine Safe.imp (fun r d' p' hr => ?_) (updateOutbox_safe row
        (Q := fun d' p' => J rows d' p')
        (fun t ht => P.waits (P.acked h hsome).1 ht)
        (fun t now ht => P.waits ((P.acked h hsome).2 now) ht))
      cases r with
      | ok _ => exact ih refused hr
      | error _ => exact ⟨rows, hr⟩

/-- **What every sent row keeps holds after a pass.** -/
theorem PassProof.publishes (P : PassProof C J)
    (h : ∀ now, J (d.dueRows now) d p) :
    Safe (S := service) Eq Platform.answers (always fun _ _ => True) (publishOutbox C)
      (fun _ d' p' => ∃ rest, J rest d' p') d p := by
  unfold publishOutbox
  refine (safe_bind (S := service) _ _ _).mpr ?_
  refine safe_transaction (alone _) ?_
  intro m d' p' hm hd
  obtain ⟨hlast, rfl⟩ := hm
  subst hd
  have hrows := fun now => P.waits (h now) hlast
  refine ⟨fun _ => ⟨trivial, _, hrows m.now⟩, trivial, ?_⟩
  refine (safe_bind (S := service) _ _ _).mpr (Safe.imp (fun r d' p' hr => ?_)
    (P.rows _ false (hrows m.now)))
  cases r with
  | error _ => exact hr
  | ok refused => cases refused <;> exact hr

end

/-! ## The newest registration -/

/-- the unique keys of the outbox; its registrations are not later than the last moment. -/
structure Db.Queue (d : Db) (p : Platform) : Prop where
  ids : KeyUnique (·.outboxId) d.outbox
  keys : KeyUnique (·.key) d.outbox
  past : ∀ r ∈ d.outbox, r.key.isRegistration = true → r.rank ≤ p.last

/-- the row of the configuration is the newest registration. -/
structure Db.Newest (d : Db) (C : Contracts) (schedule : ScheduleConfig) (n : OutboxMessage) :
    Prop where
  row : n ∈ d.outbox
  key : n.key = schedule.key C
  payload : n.payload = .registration schedule.registration
  newest : ∀ r ∈ d.outbox, r.key.isRegistration = true → r.rank ≤ n.rank

/-- the configuration has the newest registration, which is pending or was acknowledged last. -/
def Db.Leads (d : Db) (C : Contracts) (schedule : ScheduleConfig) (p : Platform) : Prop :=
  ∃ n, d.Newest C schedule n ∧
    (n.publishedAt = none ∨ p.acked.getLast? = some schedule.registration)

section
variable {C : Contracts} {d d' : Db} {p p' : Platform} {schedule : ScheduleConfig}
  {n row : OutboxMessage}

theorem Db.Newest.registers (h : d.Newest C schedule n) : n.key.isRegistration = true := by
  rw [h.key]
  rfl

/-- the row that the worker finds is the newest registration. -/
theorem Db.Newest.latest (h : d.Newest C schedule n) (hids : KeyUnique (·.outboxId) d.outbox) :
    d.latestRegistration = some n := by
  unfold Db.latestRegistration
  have hmem : n ∈ (d.outbox.filter fun r => r.key.isRegistration).insertionSort
      fun a b => toLex (b.createdAt, b.outboxId) ≤ toLex (a.createdAt, a.outboxId) :=
    (List.mem_insertionSort _).mpr (List.mem_filter.mpr ⟨h.row, h.registers⟩)
  have hsub : ∀ r ∈ (d.outbox.filter fun r => r.key.isRegistration).insertionSort
      fun a b => toLex (b.createdAt, b.outboxId) ≤ toLex (a.createdAt, a.outboxId),
      r ∈ d.outbox ∧ r.key.isRegistration = true := fun r hr =>
    List.mem_filter.mp ((List.mem_insertionSort _).mp hr)
  have hsorted : List.Pairwise
      (fun a b => toLex (b.createdAt, b.outboxId) ≤ toLex (a.createdAt, a.outboxId))
      ((d.outbox.filter fun r => r.key.isRegistration).insertionSort
        fun a b => toLex (b.createdAt, b.outboxId) ≤ toLex (a.createdAt, a.outboxId)) :=
    List.pairwise_insertionSort _ _
  revert hmem hsub hsorted
  generalize (d.outbox.filter fun r => r.key.isRegistration).insertionSort
    (fun a b => toLex (b.createdAt, b.outboxId) ≤ toLex (a.createdAt, a.outboxId)) = rows
  intro hmem hsub hsorted
  cases rows with
  | nil => cases hmem
  | cons first rest =>
    rcases List.mem_cons.mp hmem with rfl | hrest
    · rfl
    · have hge : n.rank ≤ first.rank := (List.pairwise_cons.mp hsorted).1 n hrest
      have hle : first.rank ≤ n.rank :=
        h.newest first (hsub first List.mem_cons_self).1 (hsub first List.mem_cons_self).2
      have hrank : first.rank = n.rank := le_antisymm hle hge
      have hid : first.outboxId = n.outboxId := congrArg (fun x => (ofLex x).2) hrank
      rw [hids.eq (hsub first List.mem_cons_self).1 h.row hid]
      rfl

theorem no_registration_latest (h : ∀ r ∈ d.outbox, r.key.isRegistration = false) :
    d.latestRegistration = none := by
  unfold Db.latestRegistration
  rw [List.filter_eq_nil_iff.mpr fun r hr => by rw [h r hr]; exact Bool.false_ne_true]
  rfl

/-! ## A start -/

/-- **A queued configuration becomes the newest registration**, and it is pending. -/
theorem upsert_leads {now : Instant} {id : Uuid} {d' : Db} (hq : d.Queue p)
    (hlast : p.last < toLex (now, id))
    (h : d.upsertRegistration (schedule.row C id now) = some d') :
    d'.Queue { p with last := toLex (now, id) } ∧
      d'.Leads C schedule { p with last := toLex (now, id) } := by
  unfold Db.upsertRegistration at h
  split_ifs at h with htaken hholds
  · -- the row of the configuration is there and is revived
    cases h
    have hnew : ∀ o ∈ d.outbox, o.outboxId ≠ id := by
      intro o ho hid
      exact htaken (List.any_eq_true.mpr ⟨o, ho, decide_eq_true hid⟩)
    obtain ⟨r, hr, hkey⟩ := List.any_eq_true.mp hholds
    have hkey' : r.key = schedule.key C := of_decide_eq_true hkey
    have hpast : ∀ o ∈ updateWhere (fun r => decide (r.key = (schedule.row C id now).key))
        (OutboxMessage.revive (schedule.row C id now)) d.outbox, o.key.isRegistration = true →
        o.rank ≤ toLex (now, id) := by
      intro o ho hreg
      obtain ⟨r', hr', ⟨-, rfl⟩ | ⟨-, rfl⟩⟩ := mem_updateWhere.mp ho
      · exact le_refl _
      · exact le_of_lt (lt_of_le_of_lt (hq.past _ hr' hreg) hlast)
    refine ⟨⟨?_, ?_, hpast⟩, OutboxMessage.revive (schedule.row C id now) r, ⟨?_, hkey', rfl, hpast⟩,
      .inl rfl⟩
    · refine hq.ids.replace (fun a ha b hb hpa hpb => hq.keys.eq ha hb ?_) fun a _ _ => hnew
      rw [of_decide_eq_true hpa, of_decide_eq_true hpb]
    · exact hq.keys.update fun _ _ => rfl
    · exact mem_updateWhere.mpr ⟨r, hr, .inl ⟨hkey, rfl⟩⟩
  · -- a first row of the configuration
    cases h
    have hnew : ∀ o ∈ d.outbox, o.outboxId ≠ id := by
      intro o ho hid
      exact htaken (List.any_eq_true.mpr ⟨o, ho, decide_eq_true hid⟩)
    have hfirst : ∀ o ∈ d.outbox, o.key ≠ (schedule.row C id now).key := by
      intro o ho hk
      exact hholds (List.any_eq_true.mpr ⟨o, ho, by simpa using hk⟩)
    have hpast : ∀ o ∈ d.outbox ++ [schedule.row C id now], o.key.isRegistration = true →
        o.rank ≤ toLex (now, id) := by
      intro o ho hreg
      rcases List.mem_append.mp ho with ho | ho
      · exact le_of_lt (lt_of_le_of_lt (hq.past _ ho hreg) hlast)
      · rw [List.mem_singleton.mp ho]
        exact le_refl _
    exact ⟨⟨hq.ids.snoc hnew, hq.keys.snoc hfirst, hpast⟩, schedule.row C id now,
      ⟨List.mem_append_right _ (List.mem_singleton.mpr rfl), rfl, rfl, hpast⟩, .inl rfl⟩

/-- what one start leaves: the rows as they were when the configuration is unchanged or the start
fails, and else the row of the configuration as the newest. -/
theorem enqueue_safe (hq : d.Queue p) {Q : Except RegistrationError RegistrationOutcome → Db →
      Platform → Prop}
    (hlost : ∀ x t, p.last ≤ t → Q (.error x) d { p with last := t })
    (hsame : ∀ t, p.last ≤ t → d.latestRegistration.map (·.key) = some (schedule.key C) →
      Q (.ok .unchanged) d { p with last := t })
    (hnew : ∀ d' t, d'.Queue { p with last := t } → d'.Leads C schedule { p with last := t } →
      Q (.ok .enqueued) d' { p with last := t }) :
    Safe (S := service) Eq Platform.answers (always fun _ _ => True)
      (enqueueScheduleRegistration C (some schedule)) Q d p := by
  unfold enqueueScheduleRegistration
  refine (safe_ite _ _ _ _).mpr ⟨fun _ => ?_, fun _ => ?_⟩
  · exact hlost .unavailable p.last le_rfl
  · refine safe_transaction (alone _) ?_
    intro m d' p' hm hd
    obtain ⟨hlast, rfl⟩ := hm
    subst hd
    refine registrationTx_closes (fun x => ⟨trivial, ?_⟩) (fun h => ⟨trivial, ?_⟩)
      (fun d' h => ⟨trivial, ?_⟩)
    · exact hlost x _ hlast.le
    · exact hsame _ hlast.le h
    · obtain ⟨hq', hleads⟩ := upsert_leads hq hlast h
      exact hnew d' _ hq' hleads

end

/-! ## A publish pass -/

/-- a pass changes no identity, key, payload or creation of a row, and forgets nothing. -/
structure Sent (d₀ : Db) (p₀ : Platform) (d : Db) (p : Platform) : Prop where
  faces : d.outbox.map OutboxMessage.face = d₀.outbox.map OutboxMessage.face
  acked : p₀.acked <+: p.acked
  last : p₀.last ≤ p.last

/-- the registration `n` is still to be acknowledged, or it was acknowledged last and no other
registration is to be sent. -/
structure Ahead (schedule : ScheduleConfig) (n : OutboxMessage) (d₀ : Db)
    (rows : List OutboxMessage) (d : Db) (p : Platform) : Prop where
  due : ∀ r ∈ rows, r ∈ d₀.outbox
  order : rows.Pairwise fun a b => a.outboxId = n.outboxId → b.key.isRegistration = true →
    b.payload = .registration schedule.registration
  ahead : (∃ r ∈ d.outbox, r.outboxId = n.outboxId ∧ r.publishedAt = none) ∨
    p.acked.getLast? = some schedule.registration ∧ ∀ r ∈ rows, r.key.isRegistration = true →
      r.payload = .registration schedule.registration

section
variable {C : Contracts} {d d₀ d' : Db} {p p₀ p' : Platform} {schedule : ScheduleConfig}
  {n row : OutboxMessage} {rows : List OutboxMessage}

theorem Platform.receive_acked (p : Platform) (payload : OutboxPayload) :
    p.acked <+: (p.receive payload).acked := by
  cases payload with
  | registration r => exact List.prefix_append _ _
  | _ => exact List.prefix_refl _

theorem Platform.receive_last (p : Platform) (payload : OutboxPayload) :
    (p.receive payload).last = p.last := by
  cases payload <;> rfl

theorem Db.sent_faces (u : OutboxMessage → OutboxMessage) (hu : ∀ r, (u r).face = r.face) :
    (d.sent row u).outbox.map OutboxMessage.face = d.outbox.map OutboxMessage.face :=
  map_updateWhere _ fun r _ => hu r

theorem sentProof (C : Contracts) (d₀ : Db) (p₀ : Platform) :
    PassProof C (fun _ d p => Sent d₀ p₀ d p) where
  waits h ht := ⟨h.faces, h.acked, h.last.trans ht.le⟩
  acked {row rows d p} h _ := by
    have hacked := h.acked.trans (p.receive_acked row.payload)
    have hlast : p₀.last ≤ (p.receive row.payload).last := by
      rw [p.receive_last]
      exact h.last
    exact ⟨⟨h.faces, hacked, hlast⟩, fun now =>
      ⟨(d.sent_faces (OutboxMessage.publish now) fun _ => rfl).trans h.faces, hacked, hlast⟩⟩
  refused {row rows d p} h _ :=
    ⟨h, fun now => ⟨(d.sent_faces (OutboxMessage.backOff now) fun _ => rfl).trans h.faces, h.acked, h.last⟩⟩

/-- a row that is not sent stays pending. -/
theorem Db.pending_sent {u : OutboxMessage → OutboxMessage} {id : Uuid}
    (h : ∃ r ∈ d.outbox, r.outboxId = id ∧ r.publishedAt = none)
    (hu : row.outboxId = id → ∀ r : OutboxMessage, (u r).outboxId = r.outboxId ∧
      (u r).publishedAt = r.publishedAt) :
    ∃ r ∈ (d.sent row u).outbox, r.outboxId = id ∧ r.publishedAt = none := by
  obtain ⟨r, hr, hid, hnone⟩ := h
  by_cases hrow : row.outboxId = id
  · refine ⟨u r, mem_updateWhere.mpr ⟨r, hr, .inl ⟨?_, rfl⟩⟩, ?_, ?_⟩
    · rw [hid, hrow, hnone]
      simp
    · rw [(hu hrow r).1, hid]
    · rw [(hu hrow r).2, hnone]
  · refine ⟨r, mem_updateWhere.mpr ⟨r, hr, .inr ⟨?_, rfl⟩⟩, hid, hnone⟩
    rw [hid, decide_eq_false (fun h => hrow h.symm), Bool.false_and]

theorem aheadProof (hids : KeyUnique (·.outboxId) d₀.outbox) (hn : d₀.Newest C schedule n) :
    PassProof C (fun rows d p => Ahead schedule n d₀ rows d p) where
  waits h _ := ⟨h.due, h.order, h.ahead⟩
  acked {row rows d p} h hwrap := by
    have hrows : ∀ r ∈ rows, r ∈ d₀.outbox := fun r hr => h.due r (List.mem_cons_of_mem _ hr)
    obtain ⟨hfirst, horder⟩ := List.pairwise_cons.mp h.order
    obtain ⟨message, hmessage⟩ := Option.isSome_iff_exists.mp hwrap
    rcases h.ahead with hpending | ⟨hlast, hrest⟩
    · refine ⟨⟨hrows, horder, .inl hpending⟩, fun now => ⟨hrows, horder, ?_⟩⟩
      by_cases hid : row.outboxId = n.outboxId
      · -- the row is that of the configuration, and the later registrations carry the same
        have hrow : row = n := hids.eq (h.due row List.mem_cons_self) hn.row hid
        refine .inr ⟨?_, fun r hr hreg => hfirst r hr hid hreg⟩
        rw [hrow, hn.payload]
        exact List.getLast?_concat
      · exact .inl (d.pending_sent hpending fun h => absurd h hid)
    · have hreceived : (p.receive row.payload).acked.getLast? = some schedule.registration := by
        by_cases hreg : row.key.isRegistration = true
        · rw [hrest row List.mem_cons_self hreg]
          exact List.getLast?_concat
        · have hnot := mt (wrapOutboxRow_payload hmessage).2.mpr hreg
          cases hpay : row.payload with
          | registration r => exact absurd ⟨r, hpay⟩ hnot
          | _ => exact hlast
      have hrest' := fun r hr => hrest r (List.mem_cons_of_mem _ hr)
      exact ⟨⟨hrows, horder, .inr ⟨hreceived, hrest'⟩⟩, fun now =>
        ⟨hrows, horder, .inr ⟨hreceived, hrest'⟩⟩⟩
  refused {row rows d p} h _ := by
    have hrows : ∀ r ∈ rows, r ∈ d₀.outbox := fun r hr => h.due r (List.mem_cons_of_mem _ hr)
    have horder := (List.pairwise_cons.mp h.order).2
    rcases h.ahead with hpending | ⟨hlast, hrest⟩
    · exact ⟨⟨hrows, horder, .inl hpending⟩, fun now =>
        ⟨hrows, horder, .inl (d.pending_sent hpending fun _ _ => ⟨rfl, rfl⟩)⟩⟩
    · have hrest' := fun r hr => hrest r (List.mem_cons_of_mem _ hr)
      exact ⟨⟨hrows, horder, .inr ⟨hlast, hrest'⟩⟩, fun now =>
        ⟨hrows, horder, .inr ⟨hlast, hrest'⟩⟩⟩

/-- the rows of a pass stand in order, so the newest registration comes last of all. -/
theorem Db.Newest.due (hids : KeyUnique (·.outboxId) d.outbox) (hn : d.Newest C schedule n)
    (hpending : n.publishedAt = none) (now : Instant) :
    Ahead schedule n d (d.dueRows now) d p := by
  have hmem : ∀ r ∈ d.dueRows now, r ∈ d.outbox := fun r hr =>
    (List.mem_filter.mp ((List.mem_insertionSort _).mp (List.mem_of_mem_take hr))).1
  refine ⟨hmem, ?_, .inl ⟨n, hn.row, rfl, hpending⟩⟩
  have hsorted : (d.dueRows now).Pairwise fun a b => a.rank ≤ b.rank :=
    (List.pairwise_insertionSort _ _).sublist (List.take_sublist _ _)
  refine hsorted.imp_of_mem ?_
  intro a b ha hb hab hid hreg
  obtain rfl : a = n := hids.eq (hmem a ha) hn.row hid
  have hrank : b.rank = a.rank := le_antisymm (hn.newest b (hmem b hb) hreg) hab
  have hba : b.outboxId = a.outboxId := congrArg (fun x => (ofLex x).2) hrank
  rw [hids.eq (hmem b hb) (hmem a ha) hba]
  exact hn.payload

theorem Sent.face_of (h : Sent d₀ p₀ d p) {r : OutboxMessage} (hr : r ∈ d.outbox) :
    ∃ r₀ ∈ d₀.outbox, r₀.face = r.face := by
  have hmem := List.mem_map_of_mem (f := OutboxMessage.face) hr
  rw [h.faces] at hmem
  exact List.mem_map.mp hmem

theorem OutboxMessage.face_eq {r r' : OutboxMessage} (h : r.face = r'.face) :
    r.outboxId = r'.outboxId ∧ r.key = r'.key ∧ r.payload = r'.payload ∧ r.rank = r'.rank := by
  have h₁ : r.outboxId = r'.outboxId := congrArg (·.1) h
  have h₂ : r.createdAt = r'.createdAt := congrArg (·.2.2.2) h
  refine ⟨h₁, congrArg (·.2.1) h, congrArg (·.2.2.1) h, ?_⟩
  unfold OutboxMessage.rank
  rw [h₁, h₂]

theorem Sent.queue (h : Sent d₀ p₀ d p) (hq : d₀.Queue p₀) : d.Queue p := by
  have hmap : ∀ {κ : Type} (g : Uuid × OutboxKey × OutboxPayload × Instant → κ),
      d.outbox.map (fun r => g r.face) = d₀.outbox.map fun r => g r.face := by
    intro κ g
    have := congrArg (List.map g) h.faces
    rwa [List.map_map, List.map_map] at this
  refine ⟨?_, ?_, fun r hr hreg => ?_⟩
  · show (d.outbox.map fun r => r.face.1).Nodup
    rw [hmap fun face => face.1]
    exact hq.ids
  · show (d.outbox.map fun r => r.face.2.1).Nodup
    rw [hmap fun face => face.2.1]
    exact hq.keys
  · obtain ⟨r₀, hr₀, hface⟩ := h.face_of hr
    obtain ⟨-, hkey, -, hrank⟩ := OutboxMessage.face_eq hface
    rw [← hrank]
    exact (hq.past r₀ hr₀ (hkey ▸ hreg)).trans h.last

theorem Sent.newest (h : Sent d₀ p₀ d p) (hn : d₀.Newest C schedule n) :
    ∃ n', d.Newest C schedule n' ∧ n'.outboxId = n.outboxId := by
  have hmem := List.mem_map_of_mem (f := OutboxMessage.face) hn.row
  rw [← h.faces] at hmem
  obtain ⟨n', hn', hface⟩ := List.mem_map.mp hmem
  obtain ⟨hid, hkey, hpayload, hrank⟩ := OutboxMessage.face_eq hface
  refine ⟨n', ⟨hn', hkey.trans hn.key, hpayload.trans hn.payload, fun r hr hreg => ?_⟩, hid⟩
  obtain ⟨r₀, hr₀, hface₀⟩ := h.face_of hr
  obtain ⟨-, hkey₀, -, hrank₀⟩ := OutboxMessage.face_eq hface₀
  rw [← hrank₀, hrank]
  exact hn.newest r₀ hr₀ (hkey₀ ▸ hreg)

/-- a pass keeps the identities and keys of the rows. -/
theorem publishOutbox_sent :
    Safe (S := service) Eq Platform.answers (always fun _ _ => True) (publishOutbox C)
      (fun _ d' p' => Sent d p d' p') d p :=
  Safe.imp (fun _ _ _ ⟨_, h⟩ => h) ((sentProof C d p).publishes fun _ =>
    ⟨rfl, List.prefix_refl _, le_rfl⟩)

/-- **A pass leaves the configuration in the lead** when its registration is pending before. -/
theorem publishOutbox_leads (hq : d.Queue p) (hn : d.Newest C schedule n)
    (hpending : n.publishedAt = none) :
    Safe (S := service) Eq Platform.answers (always fun _ _ => True) (publishOutbox C)
      (fun _ d' p' => d'.Leads C schedule p') d p := by
  refine Safe.mono (fun _ _ => id) (fun _ _ _ _ => id) (fun _ _ _ _ => trivial) ?_
    ((publishOutbox_sent (C := C) (d := d) (p := p)).and
      ((aheadProof hq.ids hn).publishes fun now => hn.due hq.ids hpending now))
  rintro r d' p' ⟨hsent, rest, hahead⟩
  obtain ⟨n', hn', hid⟩ := hsent.newest hn
  refine ⟨n', hn', ?_⟩
  rcases hahead.ahead with ⟨r, hr, hrid, hnone⟩ | ⟨hlast, -⟩
  · have hrn : r = n' := (hsent.queue hq).ids.eq hr hn'.row (hrid.trans hid.symm)
    exact .inl (hrn ▸ hnone)
  · exact .inr hlast

end

/-! ## Starts and passes -/

/-- one publish pass: the state before it and the registrations acknowledged in it. -/
structure Pass where
  before : Db
  acked : List ScheduleRegistration

/-- a registration is acknowledged only while the registration queued last is pending. -/
def Pass.InOrder (s : Pass) : Prop :=
  (∀ n, s.before.latestRegistration = some n → n.publishedAt = none) ∨ s.acked = []

/-- starts of the worker and publish passes, with the passes so far and the configuration given
last; a start that fails gives none, and other work leaves the registrations alone. -/
inductive Course (C : Contracts) : List Pass → Option ScheduleConfig → Db → Platform → Prop where
  | fresh {d p} : KeyUnique (·.outboxId) d.outbox → KeyUnique (·.key) d.outbox →
      (∀ r ∈ d.outbox, r.key.isRegistration = false) → p.acked = [] → Course C [] none d p
  | start {passes given d p schedule outcome d' p'} : Course C passes given d p →
      Runs (S := service) Eq Platform.answers (enqueueScheduleRegistration C (some schedule)) d p
        (.ok outcome) d' p' → Course C passes (some schedule) d' p'
  | failed {passes given d p schedule x d' p'} : Course C passes given d p →
      Runs (S := service) Eq Platform.answers (enqueueScheduleRegistration C (some schedule)) d p
        (.error x) d' p' → Course C passes given d' p'
  | pass {passes given d p r d' p'} : Course C passes given d p →
      Runs (S := service) Eq Platform.answers (publishOutbox C) d p r d' p' →
      Course C (passes ++ [⟨d, p'.acked.drop p.acked.length⟩]) given d' p'
  | elsewhere {passes given d p d'} : Course C passes given d p →
      KeyUnique (·.outboxId) d'.outbox → KeyUnique (·.key) d'.outbox →
      (d'.outbox.filter fun r => r.key.isRegistration) =
        (d.outbox.filter fun r => r.key.isRegistration) → Course C passes given d' p

section
variable {C : Contracts} {d d' : Db} {p p' : Platform} {schedule : ScheduleConfig}
  {given : Option ScheduleConfig} {passes : List Pass}

/-- the configuration given last leads, and before the first one there is no registration. -/
structure Course.Led (C : Contracts) (given : Option ScheduleConfig) (d : Db) (p : Platform) :
    Prop where
  queue : d.Queue p
  silent : given = none → ∀ r ∈ d.outbox, r.key.isRegistration = false
  leads : ∀ schedule, given = some schedule → d.Leads C schedule p

theorem Db.Queue.later {t : Instant ×ₗ Uuid} (hq : d.Queue p) (h : p.last ≤ t) :
    d.Queue { p with last := t } :=
  ⟨hq.ids, hq.keys, fun r hr hreg => (hq.past r hr hreg).trans h⟩

/-- a start leaves the configuration in the lead. -/
theorem Course.Led.start (hC : Function.Injective C.textDigest) (h : Course.Led C given d p) :
    Safe (S := service) Eq Platform.answers (always fun _ _ => True)
      (enqueueScheduleRegistration C (some schedule))
      (fun r d' p' => match r with
        | .ok _ => Course.Led C (some schedule) d' p'
        | .error _ => Course.Led C given d' p') d p := by
  refine enqueue_safe h.queue (fun x t ht => ?_) (fun t ht hlatest => ?_) fun d' t hq hleads => ?_
  · exact ⟨h.queue.later ht, h.silent, h.leads⟩
  · refine ⟨h.queue.later ht, nofun, fun s hs => ?_⟩
    obtain rfl := Option.some.inj hs
    cases given with
    | none =>
      rw [no_registration_latest (h.silent rfl)] at hlatest
      cases hlatest
    | some last =>
      obtain ⟨n, hn, hled⟩ := h.leads last rfl
      rw [hn.latest h.queue.ids] at hlatest
      have hkey : n.key = schedule.key C := Option.some.inj hlatest
      have hreg : last.registration = schedule.registration :=
        ScheduleConfig.key_inj hC (hn.key.symm.trans hkey)
      exact ⟨n, ⟨hn.row, hkey, hreg ▸ hn.payload, hn.newest⟩, hreg ▸ hled⟩
  · refine ⟨hq, nofun, fun s hs => ?_⟩
    obtain rfl := Option.some.inj hs
    exact hleads

/-- a pass in order keeps the lead. -/
theorem Course.Led.pass {r : Except BusError Unit} (h : Course.Led C given d p)
    (hin : Pass.InOrder ⟨d, p'.acked.drop p.acked.length⟩)
    (hx : Runs (S := service) Eq Platform.answers (publishOutbox C) d p r d' p') :
    Course.Led C given d' p' := by
  obtain ⟨_, rfl, hsent⟩ := publishOutbox_sent.runs (fun _ => rfl) Eq.trans hx
  refine ⟨hsent.queue h.queue, fun hnone r hr => ?_, fun s hs => ?_⟩
  · obtain ⟨r₀, hr₀, hface⟩ := hsent.face_of hr
    rw [← (OutboxMessage.face_eq hface).2.1]
    exact h.silent hnone r₀ hr₀
  · obtain ⟨n, hn, hled⟩ := h.leads s hs
    by_cases hpending : n.publishedAt = none
    · obtain ⟨_, rfl, hleads⟩ :=
        (publishOutbox_leads h.queue hn hpending).runs (fun _ => rfl) Eq.trans hx
      exact hleads
    · have hnil : p'.acked.drop p.acked.length = [] :=
        hin.resolve_left fun h' => hpending (h' n (hn.latest h.queue.ids))
      have hsame : p'.acked = p.acked := by
        obtain ⟨more, hmore⟩ := hsent.acked
        rw [← hmore, List.drop_left] at hnil
        rw [← hmore, hnil, List.append_nil]
      obtain ⟨n', hn', -⟩ := hsent.newest hn
      exact ⟨n', hn', .inr (hsame ▸ hled.resolve_left hpending)⟩

/-- other work keeps the lead. -/
theorem Course.Led.elsewhere (h : Course.Led C given d p) (hids : KeyUnique (·.outboxId) d'.outbox)
    (hkeys : KeyUnique (·.key) d'.outbox)
    (hrows : (d'.outbox.filter fun r => r.key.isRegistration) =
      (d.outbox.filter fun r => r.key.isRegistration)) : Course.Led C given d' p := by
  have hmem : ∀ r, r.key.isRegistration = true → (r ∈ d'.outbox ↔ r ∈ d.outbox) := by
    intro r hreg
    have := congrArg (r ∈ ·) hrows
    simpa [List.mem_filter, hreg] using this
  refine ⟨⟨hids, hkeys, fun r hr hreg => h.queue.past r ((hmem r hreg).mp hr) hreg⟩,
    fun hnone r hr => ?_, fun s hs => ?_⟩
  · rw [Bool.eq_false_iff]
    intro hreg
    have := h.silent hnone r ((hmem r hreg).mp hr)
    rw [hreg] at this
    cases this
  · obtain ⟨n, hn, hled⟩ := h.leads s hs
    exact ⟨n, ⟨(hmem n hn.registers).mpr hn.row, hn.key, hn.payload,
      fun r hr hreg => hn.newest r ((hmem r hreg).mp hr) hreg⟩, hled⟩

/-- **The configuration given last leads** after every course whose passes are in order. -/
theorem Course.led (hC : Function.Injective C.textDigest) (h : Course C passes given d p)
    (hin : ∀ s ∈ passes, s.InOrder) : Course.Led C given d p := by
  induction h with
  | fresh hids hkeys hnone _ =>
    refine ⟨⟨hids, hkeys, fun r hr hreg => ?_⟩, fun _ => hnone, nofun⟩
    rw [hnone r hr] at hreg
    cases hreg
  | start _ hx ih =>
    obtain ⟨_, rfl, hled⟩ := ((ih hin).start hC).runs (fun _ => rfl) Eq.trans hx
    exact hled
  | failed _ hx ih =>
    obtain ⟨_, rfl, hled⟩ := ((ih hin).start hC).runs (fun _ => rfl) Eq.trans hx
    exact hled
  | pass _ hx ih =>
    refine (ih fun s hs => hin s (List.mem_append_left _ hs)).pass ?_ hx
    exact hin _ (List.mem_append_right _ (List.mem_singleton.mpr rfl))
  | elsewhere _ hids hkeys hrows ih => exact (ih hin).elsewhere hids hkeys hrows

/-- **Platform ends with the current schedule**: when every pass was in order and no registration
is pending, the registration that was acknowledged last is that of the configuration given last. -/
theorem platform_current (hC : Function.Injective C.textDigest)
    (h : Course C passes (some schedule) d p) (hin : ∀ s ∈ passes, s.InOrder)
    (hidle : ∀ r ∈ d.outbox, r.key.isRegistration = true → r.publishedAt ≠ none) :
    p.acked.getLast? = some schedule.registration := by
  obtain ⟨n, hn, hled⟩ := (h.led hC hin).leads schedule rfl
  exact hled.resolve_left (hidle n hn.row hn.registers)

end

/-! ## A sample -/

namespace Sample

/-- what is answered with `n` questions left. -/
def minute (now : Instant) (acked : Bool) (n : Nat) : (q : Question) → q.Answer
  | .moment => ⟨now - n, fun k => now.toNat + k, none⟩
  | .resolve _ => .ok 1
  | .fetch _ _ _ => .ok ⟨[], none⟩
  | .publish _ => acked

/-- Platform and the clock after such an answer. -/
def passed (now : Instant) (acked : Bool) (n : Nat) : Question → Platform → Platform
  | .moment, p => { p with last := toLex (now - n, now.toNat) }
  | .publish message, p => if acked then p.receive message.payload else p
  | _, p => p

/-- some steps of a program at an instant. -/
def turnAt {ε α : Type} (now : Instant) (acked : Bool) (program : Action ε α)
    (c : Db × Platform) : Action ε α × Db × Platform :=
  Prog.travel (minute now acked) (passed now acked) 20 (program, c)

theorem sooner (now : Int) (i : Nat) : now - ((i + 1 : Nat) : Int) < now - (i : Int) := by omega

theorem turnAt_exec {ε α : Type} {now : Instant} {acked : Bool} {program : Action ε α}
    {c : Db × Platform} (h : (ofLex c.2.last).1 ≤ now - 20) :
    Exec (S := service) Eq Platform.answers (program, c) (turnAt now acked program c) := by
  refine (travel_exec (R := Eq) (K := fun i (p : Platform) => (ofLex p.last).1 ≤ now - (i : Nat))
    (fun i p hp => ?_) (fun i q p hp => ?_) 20 program c.1 c.2 h).1
  · exact hp.trans (sooner now i).le
  · have hlt := sooner now i
    cases q with
    | moment =>
      refine ⟨⟨Prod.Lex.lt_iff.mpr (.inl (lt_of_le_of_lt hp hlt)), rfl⟩, ?_⟩
      exact le_refl _
    | publish message =>
      refine ⟨rfl, ?_⟩
      have hlast : (passed now acked i (.publish message) p).last = p.last := by
        unfold passed
        cases acked
        · rfl
        · exact p.receive_last message.payload
      rw [hlast]
      exact hp.trans hlt.le
    | _ => exact ⟨rfl, hp.trans hlt.le⟩

def daily : ScheduleConfig := ⟨7, "0 6 * * *", true⟩
def later : ScheduleConfig := ⟨7, "30 18 * * *", true⟩

/-- the start with the daily schedule. -/
def queuedDaily :=
  turnAt 1000000 true (enqueueScheduleRegistration contracts (some daily))
    (Db.empty, ⟨toLex (0, 0), []⟩)

/-- the daily registration is refused and backed off, the later one goes out, and the daily one
follows. -/
def refusedDaily := turnAt 2000000 false (publishOutbox contracts) queuedDaily.2
def queuedLater :=
  turnAt 2500000 true (enqueueScheduleRegistration contracts (some later)) refusedDaily.2
def sentLater := turnAt 2600000 true (publishOutbox contracts) queuedLater.2
def sentDaily := turnAt 4000000 true (publishOutbox contracts) sentLater.2

theorem turnAt_runs {ε α : Type} {now : Instant} {acked : Bool} {program : Action ε α}
    {c : Db × Platform} {r : Except ε α} (h : (ofLex c.2.last).1 ≤ now - 20)
    (hr : (turnAt now acked program c).1.answer? = some r) :
    Runs (S := service) Eq Platform.answers program c.1 c.2 r (turnAt now acked program c).2.1
      (turnAt now acked program c).2.2 := travel_runs (turnAt_exec h) hr

theorem fresh_course : Course contracts [] none Db.empty ⟨toLex (0, 0), []⟩ := by
  refine .fresh KeyUnique.nil KeyUnique.nil (fun r hr => ?_) rfl
  cases hr

theorem queuedDaily_course :
    Course contracts [] (some daily) queuedDaily.2.1 queuedDaily.2.2 := by
  have hr : queuedDaily.1.answer? = some (.ok .enqueued) := by decide +kernel
  exact .start fresh_course (turnAt_runs (by decide) hr)

theorem sentDaily_course :
    ∃ passes, Course contracts passes (some later) sentDaily.2.1 sentDaily.2.2 := by
  have h₁ : refusedDaily.1.answer? = some (.error .unacknowledged) := by decide +kernel
  have h₂ : queuedLater.1.answer? = some (.ok .enqueued) := by decide +kernel
  have h₃ : sentLater.1.answer? = some (.ok ()) := by decide +kernel
  have h₄ : sentDaily.1.answer? = some (.ok ()) := by decide +kernel
  have c₁ := Course.pass queuedDaily_course (turnAt_runs (by decide +kernel) h₁)
  have c₂ := Course.start c₁ (turnAt_runs (by decide +kernel) h₂)
  have c₃ := Course.pass c₂ (turnAt_runs (by decide +kernel) h₃)
  exact ⟨_, Course.pass c₃ (turnAt_runs (by decide +kernel) h₄)⟩

/-- the daily registration is acknowledged before the later one is queued. -/
def sentFirst := turnAt 2000000 true (publishOutbox contracts) queuedDaily.2
def replaced :=
  turnAt 2500000 true (enqueueScheduleRegistration contracts (some later)) sentFirst.2
def sentSecond := turnAt 2600000 true (publishOutbox contracts) replaced.2

end Sample

/-- the older registration is acknowledged last, and Platform keeps the schedule that was given
up. -/
theorem older_registration_last : ¬ ∀ passes schedule d p,
    Course Sample.contracts passes (some schedule) d p →
    (∀ r ∈ d.outbox, r.key.isRegistration = true → r.publishedAt ≠ none) →
    p.acked.getLast? = some schedule.registration := by
  intro h
  obtain ⟨passes, hcourse⟩ := Sample.sentDaily_course
  have hlast := h passes Sample.later _ _ hcourse (by decide +kernel)
  revert hlast
  decide +kernel

/-- a course whose passes are in order. -/
theorem ordered_schedule_current :
    Sample.sentSecond.2.2.acked = [Sample.daily.registration, Sample.later.registration] ∧
      Sample.sentSecond.2.2.acked.getLast? = some Sample.later.registration := by
  have h₁ : Sample.sentFirst.1.answer? = some (.ok ()) := by decide +kernel
  have h₂ : Sample.replaced.1.answer? = some (.ok .enqueued) := by decide +kernel
  have h₃ : Sample.sentSecond.1.answer? = some (.ok ()) := by decide +kernel
  have c₁ := Course.pass Sample.queuedDaily_course (Sample.turnAt_runs (by decide +kernel) h₁)
  have c₂ := Course.start c₁ (Sample.turnAt_runs (by decide +kernel) h₂)
  have c₃ := Course.pass c₂ (Sample.turnAt_runs (by decide +kernel) h₃)
  refine ⟨by decide +kernel, platform_current textDigest_injective c₃ ?_ (by decide +kernel)⟩
  intro s hs
  have hpending : ∀ d : Db, d.latestRegistration.map (·.publishedAt) = some none →
      ∀ n, d.latestRegistration = some n → n.publishedAt = none := by
    intro d hd n hn
    rw [hn] at hd
    exact Option.some.inj hd
  rcases List.mem_append.mp hs with hs | hs
  · rw [List.mem_singleton.mp hs]
    exact .inl (hpending _ (by decide +kernel))
  · rw [List.mem_singleton.mp hs]
    exact .inl (hpending _ (by decide +kernel))

end ChannelDigests
