import ChannelDigests.Catalogue
import Mathlib.Data.List.Induction

/-!
# Histories of subscription calls

`set_subscription` called any number of times, by any owners on any usernames.

* `SubscriptionCall.tx`      one call as the transaction it runs in;
* `Db.afterCall`, `Db.afterCalls`   the state after a call, and after a history;
* `Db.subscribed`            the subscription of an owner to a username;
* `SubscriptionCall.cases`   what a call can do;
* `subscribed_afterCall`     what it leaves of each subscription;
* `limit_exact`              **the limit of active subscriptions holds and is exact**.
-/

namespace ChannelDigests
open Lib

/-- one call of `set_subscription`; the two identities are fresh ones of the caller. -/
structure SubscriptionCall where
  subscriptionId : Uuid
  channelId : Uuid
  ownerId : Uuid
  username : String
  enabled : Bool
  requestedAt : Instant
  deriving DecidableEq

namespace SubscriptionCall
variable (call : SubscriptionCall)

/-- the call with its commit; the raised limit aborts the transaction. -/
def tx : Sql IntakeError (Fate (Option Subscription)) := do
  match ← setSubscription call.subscriptionId call.channelId call.ownerId call.username call.enabled
    call.requestedAt with
  | none => .rollback .storage none
  | some s => .commit .storage (some s)

/-- the answer of a call: a row, or none when it is refused. -/
def answer (d : Db) : Except IntakeError (Option Subscription) := (settle call.tx none d).1

end SubscriptionCall

/-- the state after a call. -/
def Db.afterCall (d : Db) (call : SubscriptionCall) : Db := (settle call.tx none d).2

/-- the state after a history of calls. -/
def Db.afterCalls (d : Db) (calls : List SubscriptionCall) : Db := calls.foldl Db.afterCall d

/-- the subscription of an owner to a username in any letter case. -/
def Db.subscribed (d : Db) (ownerId : Uuid) (username : String) : Option Subscription :=
  (d.channelOf (lower username)).bind fun c => d.subscriptionOf ownerId c.channelId

/-- the username of the channel of a subscription. -/
def Db.usernameOf (d : Db) (s : Subscription) : Option String :=
  (d.channels.find? fun c => c.channelId = s.channelId).map (·.username)

/-- the call is one of the owner about the username. -/
def SubscriptionCall.about (ownerId : Uuid) (username : String) (call : SubscriptionCall) : Bool :=
  call.ownerId = ownerId && lower call.username = lower username

/-- the call would enable a subscription that is not enabled, and no more can be enabled. -/
def SubscriptionCall.refused (call : SubscriptionCall) (d : Db) : Prop :=
  call.enabled = true ∧ (∀ s, d.subscribed call.ownerId call.username = some s → s.enabled = false) ∧
    activeLimit ≤ d.activeCount call.ownerId

/-- the row that a call leaves: the one that is there, switched, or a new one. -/
def SubscriptionCall.row (call : SubscriptionCall) (d : Db) (selected : Uuid) : Subscription :=
  match d.subscribed call.ownerId call.username with
  | some s => { s with enabled := call.enabled }
  | none => ⟨call.subscriptionId, call.ownerId, selected, call.requestedAt, call.enabled⟩

/-! ## One call -/

section
variable {d : Db} {call : SubscriptionCall}

theorem settle_tx : settle call.tx none d =
    match d.setSubscription call.subscriptionId call.channelId call.ownerId call.username
      call.enabled call.requestedAt with
    | .violation => (.error .storage, d)
    | .limit => (.ok none, d)
    | .row s d' => (.ok (some s), d') := by
  unfold SubscriptionCall.tx ChannelDigests.setSubscription settle
  simp only [Bind.bind, Tx.bind, Tx.attempt, Tx.run]
  rcases d.setSubscription call.subscriptionId call.channelId call.ownerId call.username
    call.enabled call.requestedAt with _ | _ | ⟨s, d'⟩
  · rfl
  · rfl
  · rfl

theorem channelOf_iff (hd : d.Catalogued) {name : String} {c : Channel} :
    d.channelOf name = some c ↔ c ∈ d.channels ∧ c.username = name := by
  constructor
  · intro h
    exact ⟨List.mem_of_find?_eq_some h, by simpa using List.find?_some h⟩
  · intro ⟨hc, hname⟩
    exact hd.usernames.find? hc (decide_eq_true hname) fun o _ ho => by
      rw [hname]
      exact of_decide_eq_true ho

theorem subscriptionOf_iff (hd : d.Catalogued) {ownerId channelId : Uuid} {s : Subscription} :
    d.subscriptionOf ownerId channelId = some s ↔
      s ∈ d.subscriptions ∧ s.ownerId = ownerId ∧ s.channelId = channelId := by
  constructor
  · intro h
    exact ⟨List.mem_of_find?_eq_some h, by simpa using List.find?_some h⟩
  · intro ⟨hs, ho, hc⟩
    refine hd.pairs.find? hs (by simp [ho, hc]) fun o _ h => ?_
    rw [Bool.and_eq_true, decide_eq_true_eq, decide_eq_true_eq] at h
    rw [Subscription.pair, Subscription.pair, h.1, h.2, ho, hc]

/-- the subscription of an owner to a username is the row of both. -/
theorem subscribed_iff (hd : d.Catalogued) {ownerId : Uuid} {username : String} {s : Subscription} :
    d.subscribed ownerId username = some s ↔ s ∈ d.subscriptions ∧ s.ownerId = ownerId ∧
      ∃ c ∈ d.channels, c.channelId = s.channelId ∧ c.username = lower username := by
  unfold Db.subscribed
  rw [Option.bind_eq_some_iff]
  constructor
  · intro ⟨c, hc, hs⟩
    obtain ⟨hmem, hname⟩ := (channelOf_iff hd).mp hc
    obtain ⟨hs, ho, hid⟩ := (subscriptionOf_iff hd).mp hs
    exact ⟨hs, ho, c, hmem, hid.symm, hname⟩
  · intro ⟨hs, ho, c, hmem, hid, hname⟩
    exact ⟨c, (channelOf_iff hd).mpr ⟨hmem, hname⟩,
      (subscriptionOf_iff hd).mpr ⟨hs, ho, hid.symm⟩⟩

end

/-- an identity that the caller brings is in use. -/
def SubscriptionCall.taken (call : SubscriptionCall) (d : Db) : Prop :=
  (∃ c ∈ d.channels, c.channelId = call.channelId) ∨
    ∃ s ∈ d.subscriptions, s.subscriptionId = call.subscriptionId

/-- what a call that is not refused leaves: the row `s`, and every other row as it was. -/
structure SubscriptionCall.Leaves (call : SubscriptionCall) (d : Db) (s : Subscription) (d' : Db) :
    Prop where
  row : s = call.row d s.channelId
  new : d.subscribed call.ownerId call.username = none →
    ∀ o ∈ d.subscriptions, o.subscriptionId ≠ s.subscriptionId
  subscriptions : ∀ t, t ∈ d'.subscriptions ↔
    t = s ∨ t ∈ d.subscriptions ∧ t.subscriptionId ≠ s.subscriptionId
  channels : ∀ c, c ∈ d'.channels → c ∈ d.channels ∨
    c.channelId = call.channelId ∧ c.username = lower call.username
  named : ∃ c ∈ d'.channels, c.channelId = s.channelId ∧ c.username = lower call.username
  grows : ChannelsGrow d d'
  catalogued : d'.Catalogued
  others : ∀ ownerId, ownerId ≠ call.ownerId →
    d'.subscriptions.filter (fun t => t.ownerId = ownerId) =
      d.subscriptions.filter fun t => t.ownerId = ownerId

section
variable {d d' : Db} {call : SubscriptionCall} {s : Subscription}

theorem SubscriptionCall.Leaves.ownerId (h : call.Leaves d s d') (hd : d.Catalogued) :
    s.ownerId = call.ownerId := by
  rw [h.row]
  unfold SubscriptionCall.row
  rcases hs : d.subscribed call.ownerId call.username with _ | o
  · rfl
  · exact ((subscribed_iff hd).mp hs).2.1

/-- **What a call leaves of each subscription.** -/
theorem SubscriptionCall.Leaves.subscribed (h : call.Leaves d s d') (hd : d.Catalogued)
    (ownerId : Uuid) (username : String) :
    d'.subscribed ownerId username =
      if call.about ownerId username then some s else d.subscribed ownerId username := by
  by_cases ha : call.about ownerId username = true
  · rw [if_pos ha]
    unfold SubscriptionCall.about at ha
    rw [Bool.and_eq_true, decide_eq_true_eq, decide_eq_true_eq] at ha
    obtain ⟨c, hc, hid, hname⟩ := h.named
    exact (subscribed_iff h.catalogued).mpr ⟨(h.subscriptions s).mpr (.inl rfl),
      (h.ownerId hd).trans ha.1, c, hc, hid, hname.trans ha.2⟩
  · rw [if_neg ha]
    have other : ∀ c ∈ d'.channels, c.channelId = s.channelId → c.username = lower username →
        s.ownerId ≠ ownerId := by
      intro c hc hid hname howner
      obtain ⟨c₀, hc₀, hid₀, hname₀⟩ := h.named
      obtain rfl := h.catalogued.channelIds.eq hc hc₀ (hid.trans hid₀.symm)
      refine ha ?_
      unfold SubscriptionCall.about
      rw [Bool.and_eq_true, decide_eq_true_eq, decide_eq_true_eq]
      exact ⟨(h.ownerId hd).symm.trans howner, hname₀.symm.trans hname⟩
    refine Option.ext fun t => ?_
    rw [subscribed_iff h.catalogued, subscribed_iff hd, h.subscriptions]
    constructor
    · intro ⟨ht, ho, c, hc, hid, hname⟩
      rcases ht with rfl | ⟨ht, -⟩
      · exact absurd ho (other c hc hid hname)
      · obtain ⟨c₀, hc₀, hid₀⟩ := hd.known t ht
        obtain rfl := h.catalogued.channelIds.eq hc (h.grows.kept hc₀) (hid.trans hid₀.symm)
        exact ⟨ht, ho, c, hc₀, hid, hname⟩
    · intro ⟨ht, ho, c, hc, hid, hname⟩
      refine ⟨.inr ⟨ht, fun he => ?_⟩, ho, c, h.grows.kept hc, hid, hname⟩
      rcases hs : d.subscribed call.ownerId call.username with _ | o
      · exact h.new hs t ht he
      · -- the row that is there is the one with this identity.
        have hrow : s.subscriptionId = o.subscriptionId ∧ s.channelId = o.channelId := by
          rw [h.row]
          unfold SubscriptionCall.row
          rw [hs]
          exact ⟨rfl, rfl⟩
        obtain ⟨hmem, howner, -⟩ := (subscribed_iff hd).mp hs
        obtain rfl := hd.subscriptionIds.eq ht hmem (he.trans hrow.1)
        exact other c (h.grows.kept hc) (hid.trans hrow.2.symm) hname
          ((h.ownerId hd).trans (howner.symm.trans ho))

/-- the channel that a call selects. -/
structure Selects (d : Db) (channelId : Uuid) (username : String) (selected : Uuid) (d₁ : Db) :
    Prop where
  subscriptions : d₁.subscriptions = d.subscriptions
  named : ∃ c ∈ d₁.channels, c.channelId = selected ∧ c.username = lower username
  channels : ∀ c, c ∈ d₁.channels → c ∈ d.channels ∨
    c.channelId = channelId ∧ c.username = lower username
  grows : ChannelsGrow d d₁
  subscribed : ∀ ownerId, d₁.subscriptionOf ownerId selected = d.subscribed ownerId username

theorem withChannel_selects (hd : d.Catalogued) {channelId selected : Uuid} {username : String}
    {d₁ : Db} (h : d.withChannel channelId (lower username) = some (selected, d₁)) :
    Selects d channelId username selected d₁ := by
  have hgrow := (withChannel_grows h).1
  unfold Db.withChannel at h
  rcases hc : d.channelOf (lower username) with _ | c
  · rw [hc] at h
    dsimp only at h
    split_ifs at h with hid
    cases h
    refine ⟨rfl, ⟨_, List.mem_append_right _ (List.mem_singleton.mpr rfl), rfl, rfl⟩,
      fun c hc => ?_, hgrow, fun ownerId => ?_⟩
    · rcases List.mem_append.mp hc with hc | hc
      · exact .inl hc
      · rw [List.mem_singleton.mp hc]
        exact .inr ⟨rfl, rfl⟩
    · -- no subscription is of a channel that was not there.
      have hnone : d.subscribed ownerId username = none := by
        unfold Db.subscribed
        rw [hc]
        rfl
      rw [hnone]
      refine List.find?_eq_none.mpr fun s hs hp => hid ?_
      rw [Bool.and_eq_true, decide_eq_true_eq, decide_eq_true_eq] at hp
      obtain ⟨c, hc, he⟩ := hd.known s hs
      exact List.any_eq_true.mpr ⟨c, hc, decide_eq_true (he.trans hp.2)⟩
  · rw [hc] at h
    cases h
    obtain ⟨hmem, hname⟩ := (channelOf_iff hd).mp hc
    refine ⟨rfl, ⟨c, hmem, rfl, hname⟩, fun c hc => .inl hc, hgrow, fun ownerId => ?_⟩
    unfold Db.subscribed
    rw [hc]
    rfl

/-- the rows after one of them is switched. -/
theorem mem_switched {rows : List Subscription} (hu : KeyUnique Subscription.subscriptionId rows)
    {o : Subscription} (ho : o ∈ rows) (enabled : Bool) (t : Subscription) :
    t ∈ updateWhere (fun s => decide (s.subscriptionId = o.subscriptionId))
        (fun s => { s with enabled }) rows ↔
      t = { o with enabled } ∨ t ∈ rows ∧ t.subscriptionId ≠ o.subscriptionId := by
  rw [mem_updateWhere]
  constructor
  · intro ⟨r, hr, h⟩
    rcases h with ⟨hp, rfl⟩ | ⟨hp, rfl⟩
    · obtain rfl := hu.eq hr ho (of_decide_eq_true hp)
      exact .inl rfl
    · exact .inr ⟨hr, of_decide_eq_false hp⟩
  · intro h
    rcases h with rfl | ⟨ht, hne⟩
    · exact ⟨o, ho, .inl ⟨decide_eq_true rfl, rfl⟩⟩
    · exact ⟨t, ht, .inr ⟨decide_eq_false hne, rfl⟩⟩

/-- the call in terms of the subscription of its owner to its username. -/
theorem setSubscription_match (hd : d.Catalogued) {selected : Uuid} {d₁ : Db}
    (hw : d.withChannel call.channelId (lower call.username) = some (selected, d₁)) :
    d.setSubscription call.subscriptionId call.channelId call.ownerId call.username call.enabled
      call.requestedAt =
    match d.subscribed call.ownerId call.username with
    | some o =>
      if call.enabled && !o.enabled && activeLimit ≤ d.activeCount call.ownerId then .limit
      else .row { o with enabled := call.enabled }
        { d₁ with
          subscriptions := updateWhere (fun s => s.subscriptionId = o.subscriptionId)
            (fun s => { s with enabled := call.enabled }) d.subscriptions }
    | none =>
      if call.enabled && activeLimit ≤ d.activeCount call.ownerId then .limit
      else if d.subscriptions.any (fun s => s.subscriptionId = call.subscriptionId) then .violation
      else .row (call.row d selected)
        { d₁ with subscriptions := d.subscriptions ++ [call.row d selected] } := by
  have hsel := withChannel_selects hd hw
  have hcount : d₁.activeCount call.ownerId = d.activeCount call.ownerId := by
    unfold Db.activeCount
    rw [hsel.subscriptions]
  unfold Db.setSubscription SubscriptionCall.row
  rw [hw]
  dsimp only
  rw [hsel.subscribed, hcount, hsel.subscriptions]
  cases d.subscribed call.ownerId call.username with
  | none => rfl
  | some o => rfl

/-- a refused call, by the row that is there. -/
theorem SubscriptionCall.refused_iff : call.refused d ↔
    match d.subscribed call.ownerId call.username with
    | some o => (call.enabled && !o.enabled && activeLimit ≤ d.activeCount call.ownerId) = true
    | none => (call.enabled && activeLimit ≤ d.activeCount call.ownerId) = true := by
  unfold SubscriptionCall.refused
  cases d.subscribed call.ownerId call.username with
  | none => simp
  | some o => simp [and_assoc]

/-- a call that finds its subscription and is not refused. -/
theorem Selects.switched {selected : Uuid} {d₁ : Db} {o : Subscription} (hd : d.Catalogued)
    (hsel : Selects d call.channelId call.username selected d₁)
    (ho : d.subscribed call.ownerId call.username = some o)
    (hcat : ({ d₁ with
      subscriptions := updateWhere (fun s => decide (s.subscriptionId = o.subscriptionId))
        (fun s => { s with enabled := call.enabled }) d.subscriptions } : Db).Catalogued) :
    call.Leaves d { o with enabled := call.enabled }
      { d₁ with
        subscriptions := updateWhere (fun s => decide (s.subscriptionId = o.subscriptionId))
          (fun s => { s with enabled := call.enabled }) d.subscriptions } := by
  obtain ⟨hmem, howner, c, hc, hid, hname⟩ := (subscribed_iff hd).mp ho
  refine ⟨?_, fun hnone => ?_, mem_switched hd.subscriptionIds hmem call.enabled, hsel.channels,
    ⟨c, hsel.grows.kept hc, hid, hname⟩, hsel.grows, hcat, fun ownerId hne => ?_⟩
  · unfold SubscriptionCall.row
    rw [ho]
  · rw [ho] at hnone
    cases hnone
  · show (updateWhere _ _ d.subscriptions).filter _ = _
    refine (filter_updateWhere (u := fun s : Subscription => { s with enabled := call.enabled })
      fun _ _ => rfl).trans ?_
    refine updateWhere_none fun t ht => decide_eq_false fun he => hne ?_
    obtain ⟨ht, hto⟩ := List.mem_filter.mp ht
    rw [← of_decide_eq_true hto, hd.subscriptionIds.eq ht hmem he, howner]

/-- a call that finds no subscription and is not refused. -/
theorem Selects.inserted {selected : Uuid} {d₁ : Db}
    (hsel : Selects d call.channelId call.username selected d₁)
    (ho : d.subscribed call.ownerId call.username = none)
    (hid : ∀ s ∈ d.subscriptions, s.subscriptionId ≠ call.subscriptionId)
    (hcat : ({ d₁ with
      subscriptions := d.subscriptions ++ [call.row d selected] } : Db).Catalogued) :
    call.Leaves d (call.row d selected)
      { d₁ with subscriptions := d.subscriptions ++ [call.row d selected] } := by
  have hrow : call.row d selected =
      ⟨call.subscriptionId, call.ownerId, selected, call.requestedAt, call.enabled⟩ := by
    unfold SubscriptionCall.row
    rw [ho]
  refine ⟨?_, fun _ => ?_, fun t => ?_, hsel.channels, ?_, hsel.grows, hcat, fun ownerId hne => ?_⟩
  · rw [show (call.row d selected).channelId = selected by rw [hrow]]
  · rw [hrow]
    exact hid
  · show t ∈ d.subscriptions ++ [call.row d selected] ↔ _
    rw [List.mem_append, List.mem_singleton, or_comm]
    refine or_congr_right ⟨fun ht => ⟨ht, ?_⟩, And.left⟩
    rw [hrow]
    exact hid t ht
  · rw [hrow]
    exact hsel.named
  · show (d.subscriptions ++ [call.row d selected]).filter _ = _
    rw [List.filter_append, hrow, List.filter_singleton]
    simp [hne.symm]

/-- **What a call can do**: it is refused, an identity that it brings is in use, or it leaves its
row. -/
theorem SubscriptionCall.cases (hd : d.Catalogued) (call : SubscriptionCall) :
    (call.refused d ∧ settle call.tx none d = (.ok none, d)) ∨
    (call.taken d ∧ settle call.tx none d = (.error .storage, d)) ∨
    (¬ call.refused d ∧ ∃ s d', settle call.tx none d = (.ok (some s), d') ∧ call.Leaves d s d') := by
  rw [settle_tx, SubscriptionCall.refused_iff]
  rcases hw : d.withChannel call.channelId (lower call.username) with _ | ⟨selected, d₁⟩
  · refine .inr (.inl ⟨?_, by unfold Db.setSubscription; rw [hw]⟩)
    unfold Db.withChannel at hw
    split at hw
    · cases hw
    · split_ifs at hw with hid
      obtain ⟨c, hc, he⟩ := List.any_eq_true.mp hid
      exact .inl ⟨c, hc, of_decide_eq_true he⟩
  have hsel := withChannel_selects hd hw
  have hset := setSubscription_match hd hw
  rcases ho : d.subscribed call.ownerId call.username with _ | o
  · rw [ho] at hset
    dsimp only at hset ⊢
    by_cases hlimit : (call.enabled && activeLimit ≤ d.activeCount call.ownerId) = true
    · rw [if_pos hlimit] at hset
      exact .inl ⟨hlimit, by rw [hset]⟩
    rw [if_neg hlimit] at hset
    by_cases hid : d.subscriptions.any (fun s => s.subscriptionId = call.subscriptionId) = true
    · rw [if_pos hid] at hset
      obtain ⟨s, hs, he⟩ := List.any_eq_true.mp hid
      exact .inr (.inl ⟨.inr ⟨s, hs, of_decide_eq_true he⟩, by rw [hset]⟩)
    · rw [if_neg hid] at hset
      refine .inr (.inr ⟨hlimit, _, _, by rw [hset], hsel.inserted ho (fun s hs he => hid ?_)
        ((setSubscription_sets hset).catalogued hd)⟩)
      exact List.any_eq_true.mpr ⟨s, hs, decide_eq_true he⟩
  · rw [ho] at hset
    dsimp only at hset ⊢
    by_cases hlimit :
        (call.enabled && !o.enabled && activeLimit ≤ d.activeCount call.ownerId) = true
    · rw [if_pos hlimit] at hset
      exact .inl ⟨hlimit, by rw [hset]⟩
    · rw [if_neg hlimit] at hset
      exact .inr (.inr ⟨hlimit, _, _, by rw [hset], hsel.switched hd ho
        ((setSubscription_sets hset).catalogued hd)⟩)

end

/-! ## Histories -/

/-- the callers bring fresh identities. -/
structure Unrepeated (calls : List SubscriptionCall) : Prop where
  subscriptionIds : (calls.map (·.subscriptionId)).Nodup
  channelIds : (calls.map (·.channelId)).Nodup

/-- the rows after a history: keys and limit hold, and identities and names are of its calls. -/
structure Db.Called (d : Db) (calls : List SubscriptionCall) : Prop where
  catalogued : d.Catalogued
  channels : ∀ c ∈ d.channels, ∃ call ∈ calls, c.channelId = call.channelId ∧
    c.username = lower call.username
  subscriptions : ∀ s ∈ d.subscriptions, ∃ call ∈ calls, s.subscriptionId = call.subscriptionId

section
variable {d : Db} {calls past rest : List SubscriptionCall} {call : SubscriptionCall}

theorem afterCalls_snoc : d.afterCalls (calls ++ [call]) = (d.afterCalls calls).afterCall call :=
  List.foldl_append

theorem afterCalls_append : d.afterCalls (past ++ rest) = (d.afterCalls past).afterCalls rest :=
  List.foldl_append

theorem Unrepeated.of_append (h : Unrepeated (past ++ rest)) : Unrepeated past := by
  obtain ⟨hs, hc⟩ := h
  rw [List.map_append] at hs hc
  exact ⟨hs.of_append_left, hc.of_append_left⟩

theorem catalogued_afterCall (h : d.Catalogued) : (d.afterCall call).Catalogued := by
  unfold Db.afterCall
  rcases call.cases h with ⟨-, hs⟩ | ⟨-, hs⟩ | ⟨-, s, d', hs, hl⟩
  · rw [hs]
    exact h
  · rw [hs]
    exact h
  · rw [hs]
    exact hl.catalogued

/-- one more call. -/
theorem Db.Called.snoc (h : d.Called calls) : (d.afterCall call).Called (calls ++ [call]) := by
  have old : d.Called (calls ++ [call]) :=
    ⟨h.catalogued, fun c hc => (h.channels c hc).imp fun _ => And.imp_left (List.mem_append_left _),
      fun s hs => (h.subscriptions s hs).imp fun _ => And.imp_left (List.mem_append_left _)⟩
  have hmem : call ∈ calls ++ [call] := List.mem_append_right _ (List.mem_singleton.mpr rfl)
  unfold Db.afterCall
  rcases call.cases h.catalogued with ⟨-, hs⟩ | ⟨-, hs⟩ | ⟨-, s, d', hs, hl⟩
  · rw [hs]
    exact old
  · rw [hs]
    exact old
  · rw [hs]
    refine ⟨hl.catalogued, fun c hc => ?_, fun t ht => ?_⟩
    · rcases hl.channels c hc with hc | ⟨hid, hname⟩
      · exact old.channels c hc
      · exact ⟨call, hmem, hid, hname⟩
    · rcases (hl.subscriptions t).mp ht with rfl | ⟨ht, -⟩
      · rw [hl.row]
        unfold SubscriptionCall.row
        rcases ho : d.subscribed call.ownerId call.username with _ | o
        · exact ⟨call, hmem, rfl⟩
        · exact old.subscriptions o ((subscribed_iff h.catalogued).mp ho).1
      · exact old.subscriptions t ht

theorem called_afterCalls (calls : List SubscriptionCall) :
    (Db.empty.afterCalls calls).Called calls := by
  induction calls using List.reverseRecOn with
  | nil => exact ⟨.empty, fun c hc => (by cases hc), fun s hs => (by cases hs)⟩
  | append_singleton calls call ih =>
    rw [afterCalls_snoc]
    exact ih.snoc

/-- fresh identities are not in use. -/
theorem Db.Called.untaken (h : d.Called calls) (hu : Unrepeated (calls ++ [call])) :
    ¬ call.taken d := by
  obtain ⟨hs, hc⟩ := hu
  rw [List.map_append, List.nodup_append] at hs hc
  intro htaken
  rcases htaken with ⟨c, hmem, he⟩ | ⟨s, hmem, he⟩
  · obtain ⟨o, ho, hid, -⟩ := h.channels c hmem
    exact hc.2.2 _ (List.mem_map_of_mem ho) _ (List.mem_map_of_mem (List.mem_singleton.mpr rfl))
      (hid.symm.trans he)
  · obtain ⟨o, ho, hid⟩ := h.subscriptions s hmem
    exact hs.2.2 _ (List.mem_map_of_mem ho) _ (List.mem_map_of_mem (List.mem_singleton.mpr rfl))
      (hid.symm.trans he)

/-! ## The limit -/

/-- at most `activeLimit` enabled subscriptions an owner, and one row for each owner and username
in lower case. -/
structure Db.Limited (d : Db) : Prop where
  limit : ∀ ownerId, d.activeCount ownerId ≤ activeLimit
  named : ∀ s ∈ d.subscriptions, ∃ username, d.usernameOf s = some (lower username)
  single : ∀ s ∈ d.subscriptions, ∀ t ∈ d.subscriptions, s.ownerId = t.ownerId →
    d.usernameOf s = d.usernameOf t → s = t

/-- when a call is refused, and what it leaves. -/
structure SubscriptionCall.Exact (call : SubscriptionCall) (d : Db) : Prop where
  answered : call.answer d = .ok none ∨ ∃ s, call.answer d = .ok (some s)
  refused_iff : call.answer d = .ok none ↔ call.refused d
  refused_same : call.answer d = .ok none → d.afterCall call = d
  granted : (call.enabled = false ∨
    ∃ s, d.subscribed call.ownerId call.username = some s ∧ s.enabled = true) →
      ∃ s, call.answer d = .ok (some s)
  row : ∀ s, call.answer d = .ok (some s) →
    (d.afterCall call).subscribed call.ownerId call.username = some s ∧ s.enabled = call.enabled
  others : ∀ ownerId, ownerId ≠ call.ownerId →
    (d.afterCall call).subscriptions.filter (fun s => s.ownerId = ownerId) =
      d.subscriptions.filter fun s => s.ownerId = ownerId

theorem usernameOf_eq (hd : d.Catalogued) {s : Subscription} {c : Channel} (hc : c ∈ d.channels)
    (hid : c.channelId = s.channelId) : d.usernameOf s = some c.username := by
  unfold Db.usernameOf
  rw [hd.channelIds.find? hc (decide_eq_true hid) fun o _ ho => by
    rw [hid]
    exact of_decide_eq_true ho]
  rfl

theorem Db.Called.limited (h : d.Called calls) : d.Limited where
  limit := h.catalogued.limit
  named s hs := by
    obtain ⟨c, hc, hid⟩ := h.catalogued.known s hs
    obtain ⟨call, -, -, hname⟩ := h.channels c hc
    exact ⟨call.username, by rw [usernameOf_eq h.catalogued hc hid, hname]⟩
  single s hs t ht howner hname := by
    obtain ⟨c, hc, hid⟩ := h.catalogued.known s hs
    obtain ⟨c', hc', hid'⟩ := h.catalogued.known t ht
    rw [usernameOf_eq h.catalogued hc hid, usernameOf_eq h.catalogued hc' hid'] at hname
    obtain rfl := h.catalogued.usernames.eq hc hc' (Option.some.inj hname)
    exact h.catalogued.pairs.eq hs ht (Prod.ext howner (hid.symm.trans hid'))

/-- the row of a call has the state that was asked for. -/
theorem SubscriptionCall.Leaves.enabled {s : Subscription} {d' : Db} (h : call.Leaves d s d') :
    s.enabled = call.enabled := by
  rw [h.row]
  unfold SubscriptionCall.row
  cases d.subscribed call.ownerId call.username with
  | none => rfl
  | some o => rfl

/-- a call with fresh identities. -/
theorem SubscriptionCall.exact (hd : d.Catalogued) (hfree : ¬ call.taken d) : call.Exact d := by
  have hcases := call.cases hd
  rcases hcases with ⟨hr, hs⟩ | ⟨ht, -⟩ | ⟨hr, s, d', hs, hl⟩
  · have hans : call.answer d = .ok none := congrArg Prod.fst hs
    have hafter : d.afterCall call = d := congrArg Prod.snd hs
    refine ⟨.inl hans, ⟨fun _ => hr, fun _ => hans⟩, fun _ => hafter, fun hg => ?_, fun s hrow => ?_,
      fun ownerId _ => by rw [hafter]⟩
    · obtain ⟨hen, hoff, -⟩ := hr
      rcases hg with hg | ⟨s, hs, hg⟩
      · rw [hen] at hg
        cases hg
      · rw [hoff s hs] at hg
        cases hg
    · rw [hans] at hrow
      cases hrow
  · exact absurd ht hfree
  · have hans : call.answer d = .ok (some s) := congrArg Prod.fst hs
    have hafter : d.afterCall call = d' := congrArg Prod.snd hs
    have hnot : call.answer d ≠ .ok none := by
      rw [hans]
      intro h
      cases h
    refine ⟨.inr ⟨s, hans⟩, ⟨fun h => absurd h hnot, fun h => absurd h hr⟩, fun h => absurd h hnot,
      fun _ => ⟨s, hans⟩, fun t ht => ?_, fun ownerId hne => ?_⟩
    · rw [hans] at ht
      cases ht
      rw [hafter, hl.subscribed hd, if_pos (by simp [SubscriptionCall.about])]
      exact ⟨rfl, hl.enabled⟩
    · rw [hafter]
      exact hl.others ownerId hne

/-- a call keeps the identity and the first activation of every subscription that is there. -/
theorem subscribed_afterCall (hd : d.Catalogued) {ownerId : Uuid} {username : String}
    {s : Subscription} (h : d.subscribed ownerId username = some s) :
    ∃ t, (d.afterCall call).subscribed ownerId username = some t ∧
      t.subscriptionId = s.subscriptionId ∧ t.firstActivatedAt = s.firstActivatedAt := by
  unfold Db.afterCall
  rcases call.cases hd with ⟨-, hs⟩ | ⟨-, hs⟩ | ⟨-, t, d', hs, hl⟩
  · rw [hs]
    exact ⟨s, h, rfl, rfl⟩
  · rw [hs]
    exact ⟨s, h, rfl, rfl⟩
  · rw [hs]
    dsimp only
    rw [hl.subscribed hd]
    by_cases ha : call.about ownerId username = true
    · rw [if_pos ha]
      refine ⟨t, rfl, ?_⟩
      unfold SubscriptionCall.about at ha
      rw [Bool.and_eq_true, decide_eq_true_eq, decide_eq_true_eq] at ha
      have hthere : d.subscribed call.ownerId call.username = some s := by
        rw [← h, ha.1]
        unfold Db.subscribed
        rw [ha.2]
      rw [hl.row]
      unfold SubscriptionCall.row
      rw [hthere]
      exact ⟨rfl, rfl⟩
    · rw [if_neg ha]
      exact ⟨s, h, rfl, rfl⟩

/-- and so does a history. -/
theorem subscribed_afterCalls (hd : d.Catalogued) {ownerId : Uuid} {username : String}
    {s : Subscription} (h : d.subscribed ownerId username = some s)
    (calls : List SubscriptionCall) :
    ∃ t, (d.afterCalls calls).subscribed ownerId username = some t ∧
      t.subscriptionId = s.subscriptionId ∧ t.firstActivatedAt = s.firstActivatedAt := by
  induction calls generalizing d s with
  | nil => exact ⟨s, h, rfl, rfl⟩
  | cons call calls ih =>
    obtain ⟨t, ht, hid, hat⟩ := subscribed_afterCall hd h
    obtain ⟨r, hr, hid', hat'⟩ := ih (catalogued_afterCall hd) ht
    exact ⟨r, hr, hid'.trans hid, hat'.trans hat⟩

/-- **The limit of active subscriptions holds and is exact**, in every history of calls: in each
state there is one row for each owner and username and at most twenty of an owner are enabled;
each call is refused exactly when it would enable one more than twenty; and the identity of a
subscription is stable. -/
theorem limit_exact (hu : Unrepeated calls) :
    (∀ past rest, calls = past ++ rest → (Db.empty.afterCalls past).Limited) ∧
    (∀ past call rest, calls = past ++ call :: rest → call.Exact (Db.empty.afterCalls past)) ∧
    ∀ past rest ownerId username s, calls = past ++ rest →
      (Db.empty.afterCalls past).subscribed ownerId username = some s →
        ∃ t, (Db.empty.afterCalls calls).subscribed ownerId username = some t ∧
          t.subscriptionId = s.subscriptionId := by
  refine ⟨fun past rest _ => (called_afterCalls past).limited, fun past call rest h => ?_,
    fun past rest ownerId username s h hs => ?_⟩
  · rw [h, show past ++ call :: rest = (past ++ [call]) ++ rest by simp] at hu
    have hpast := called_afterCalls past
    exact SubscriptionCall.exact hpast.catalogued (hpast.untaken hu.of_append)
  · obtain ⟨t, ht, hid, -⟩ :=
      subscribed_afterCalls (called_afterCalls past).catalogued hs rest
    rw [h, afterCalls_append]
    exact ⟨t, ht, hid⟩

end

namespace Sample

/-- one username in two letter cases, enabled and then disabled. -/
def letterCases : List SubscriptionCall :=
  [⟨1, 11, 7, "Rust_News", true, 0⟩, ⟨2, 12, 7, "rust_news", false, 5⟩]

theorem letterCases_limited :
    Unrepeated letterCases ∧ (Db.empty.afterCalls letterCases).Limited :=
  ⟨⟨by decide, by decide⟩, (limit_exact ⟨by decide, by decide⟩).1 letterCases [] rfl⟩

example : ((Db.empty.afterCalls letterCases).subscribed 7 "RUST_NEWS").map (·.subscriptionId) =
    some 1 := by decide +kernel

end Sample

end ChannelDigests
