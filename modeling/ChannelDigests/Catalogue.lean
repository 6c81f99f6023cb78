import ChannelDigests.Change

/-!
# Channels and subscriptions

What `set_subscription` does to the two tables, and what the schema and the subscription limit keep
of them.

* `SubscriptionSet`     the rows that `set_subscription` leaves;
* `Db.Catalogued`       keys, foreign keys and the limit of enabled subscriptions;
* `Change.catalogued`   **every change keeps them**;
* `ChannelsGrow`        channel rows only come, under new identities and names.
-/

namespace ChannelDigests
open Lib

/-- channel rows only come, under a new identity and a new name. -/
def ChannelsGrow (d d' : Db) : Prop :=
  d'.channels = d.channels ∨ ∃ c, d'.channels = d.channels ++ [c] ∧
    (∀ o ∈ d.channels, o.channelId ≠ c.channelId) ∧ ∀ o ∈ d.channels, o.username ≠ c.username

namespace ChannelsGrow
variable {d d' : Db}

theorem kept (h : ChannelsGrow d d') {c : Channel} (hc : c ∈ d.channels) : c ∈ d'.channels := by
  rcases h with h | ⟨n, h, -⟩
  · rwa [h]
  · rw [h]
    exact List.mem_append_left _ hc

theorem ids (h : ChannelsGrow d d') (hu : KeyUnique Channel.channelId d.channels) :
    KeyUnique Channel.channelId d'.channels := by
  rcases h with h | ⟨c, h, hid, -⟩
  · rwa [h]
  · rw [h]
    exact hu.snoc hid

theorem usernames (h : ChannelsGrow d d') (hu : KeyUnique Channel.username d.channels) :
    KeyUnique Channel.username d'.channels := by
  rcases h with h | ⟨c, h, -, hname⟩
  · rwa [h]
  · rw [h]
    exact hu.snoc hname

end ChannelsGrow

/-- the owner and the channel of a subscription. -/
def Subscription.pair (s : Subscription) : Uuid × Uuid := (s.ownerId, s.channelId)

/-- the rows that `set_subscription` leaves: an existing subscription is switched, or a new one is
inserted; the limit was checked when one more became enabled. -/
structure SubscriptionSet (d : Db) (ownerId : Uuid) (enabled : Bool) (d' : Db) : Prop where
  channels : ChannelsGrow d d'
  subscriptions : ∃ selected, (∃ c ∈ d'.channels, c.channelId = selected) ∧
    ((∃ s ∈ d.subscriptions, s.ownerId = ownerId ∧
        d'.subscriptions = updateWhere (fun o => decide (o.subscriptionId = s.subscriptionId))
          (fun o => { o with enabled := enabled }) d.subscriptions ∧
        (enabled = true → s.enabled = false → d.activeCount ownerId < activeLimit)) ∨
      ∃ s : Subscription, s.ownerId = ownerId ∧ s.channelId = selected ∧ s.enabled = enabled ∧
        d'.subscriptions = d.subscriptions ++ [s] ∧
        (∀ o ∈ d.subscriptions, o.subscriptionId ≠ s.subscriptionId) ∧
        (∀ o ∈ d.subscriptions, o.pair ≠ s.pair) ∧
        (enabled = true → d.activeCount ownerId < activeLimit))

theorem withChannel_grows {d d₁ : Db} {channelId selected : Uuid} {username : String}
    (h : d.withChannel channelId username = some (selected, d₁)) :
    ChannelsGrow d d₁ ∧ (∃ c ∈ d₁.channels, c.channelId = selected) ∧
      d₁.subscriptions = d.subscriptions := by
  unfold Db.withChannel at h
  rcases hc : d.channelOf username with _ | c
  · rw [hc] at h
    dsimp only at h
    split_ifs at h with hid
    cases h
    refine ⟨.inr ⟨_, rfl, fun o ho he => hid ?_, fun o ho he => ?_⟩,
      ⟨_, List.mem_append_right _ (List.mem_singleton.mpr rfl), rfl⟩, rfl⟩
    · exact List.any_eq_true.mpr ⟨o, ho, decide_eq_true he⟩
    · exact absurd (decide_eq_true he) (List.find?_eq_none.mp hc o ho)
  · rw [hc] at h
    cases h
    exact ⟨.inl rfl, ⟨c, List.mem_of_find?_eq_some hc, rfl⟩, rfl⟩

/-- **What `set_subscription` leaves.** -/
theorem setSubscription_sets {d d' : Db} {sid cid ownerId : Uuid} {username : String}
    {enabled : Bool} {now : Instant} {s : Subscription}
    (h : d.setSubscription sid cid ownerId username enabled now = .row s d') :
    SubscriptionSet d ownerId enabled d' := by
  unfold Db.setSubscription at h
  rcases hw : d.withChannel cid (lower username) with _ | ⟨selected, d₁⟩
  · rw [hw] at h
    cases h
  obtain ⟨hgrow, hknown, hsubs⟩ := withChannel_grows hw
  have hcount : d₁.activeCount ownerId = d.activeCount ownerId := by
    unfold Db.activeCount
    rw [hsubs]
  rw [hw] at h
  dsimp only at h
  rcases hs : d₁.subscriptionOf ownerId selected with _ | existing
  · rw [hs] at h
    dsimp only at h
    split_ifs at h with hlimit hid
    cases h
    rw [hcount, Bool.and_eq_true, decide_eq_true_eq, not_and, not_le] at hlimit
    have hnone := List.find?_eq_none.mp hs
    rw [hsubs] at hnone hid
    refine ⟨hgrow, selected, hknown, .inr ⟨_, rfl, rfl, rfl, by rw [hsubs], fun o ho he => hid ?_,
      fun o ho he => ?_, hlimit⟩⟩
    · exact List.any_eq_true.mpr ⟨o, ho, decide_eq_true he⟩
    · have hpair := Prod.mk.inj he
      refine hnone o ho ?_
      rw [Bool.and_eq_true, decide_eq_true_eq, decide_eq_true_eq]
      exact hpair
  · rw [hs] at h
    dsimp only at h
    split_ifs at h with hlimit
    cases h
    have hmem := List.mem_of_find?_eq_some hs
    have howner := List.find?_some hs
    rw [Bool.and_eq_true, decide_eq_true_eq] at howner
    rw [hsubs] at hmem
    refine ⟨hgrow, selected, hknown, .inl ⟨existing, hmem, howner.1, by rw [hsubs], fun he hoff => ?_⟩⟩
    rw [he, hoff, hcount] at hlimit
    simpa using hlimit

/-! ## The invariant -/

/-- keys, foreign keys and the limit of channels and subscriptions. -/
structure Db.Catalogued (d : Db) : Prop where
  channelIds : KeyUnique Channel.channelId d.channels
  usernames : KeyUnique Channel.username d.channels
  subscriptionIds : KeyUnique Subscription.subscriptionId d.subscriptions
  pairs : KeyUnique Subscription.pair d.subscriptions
  known : ∀ s ∈ d.subscriptions, ∃ c ∈ d.channels, c.channelId = s.channelId
  limit : ∀ ownerId, d.activeCount ownerId ≤ activeLimit

theorem Db.Catalogued.empty : Db.empty.Catalogued where
  channelIds := .nil
  usernames := .nil
  subscriptionIds := .nil
  pairs := .nil
  known _ h := by cases h
  limit _ := Nat.zero_le _

/-- the invariant looks at the two tables only. -/
theorem Db.Catalogued.same {d d' : Db} (h : d.Catalogued) (hc : d'.channels = d.channels)
    (hs : d'.subscriptions = d.subscriptions) : d'.Catalogued where
  channelIds := hc ▸ h.channelIds
  usernames := hc ▸ h.usernames
  subscriptionIds := hs ▸ h.subscriptionIds
  pairs := hs ▸ h.pairs
  known s hmem := by
    rw [hc]
    exact h.known s (hs ▸ hmem)
  limit o := by
    unfold Db.activeCount
    rw [hs]
    exact h.limit o

/-- a switched subscription. -/
theorem SubscriptionSet.limit {d d' : Db} {ownerId : Uuid} {enabled : Bool}
    (h : SubscriptionSet d ownerId enabled d') (hd : d.Catalogued) (o : Uuid) :
    d'.activeCount o ≤ activeLimit := by
  have hold := hd.limit o
  obtain ⟨selected, -, ⟨s, hs, howner, heq, hlimit⟩ | ⟨s, howner, -, hen, heq, -, -, hlimit⟩⟩ :=
    h.subscriptions
  · unfold Db.activeCount at hold hlimit ⊢
    rw [heq]
    by_cases hmore : o = ownerId ∧ enabled = true ∧ s.enabled = false
    · obtain ⟨rfl, hen, hoff⟩ := hmore
      have hlt := hlimit hen hoff
      have := hd.subscriptionIds.countP_updateWhere s.subscriptionId
        (fun s => decide (s.ownerId = o) && s.enabled) (fun s => { s with enabled := enabled })
      omega
    · refine le_trans (countP_updateWhere_le fun r hr hp hq => ?_) hold
      rw [decide_eq_true_eq] at hp
      obtain rfl := hd.subscriptionIds.eq hr hs hp
      rw [Bool.and_eq_true, decide_eq_true_eq] at hq ⊢
      obtain ⟨hro, hen⟩ := hq
      refine ⟨hro, ?_⟩
      by_contra hoff
      exact hmore ⟨hro.symm.trans howner, hen, Bool.not_eq_true _ |>.mp hoff⟩
  · unfold Db.activeCount at hold hlimit ⊢
    rw [heq, List.countP_append, List.countP_singleton]
    by_cases hmore : o = ownerId ∧ enabled = true
    · obtain ⟨rfl, hen⟩ := hmore
      have hlt := hlimit hen
      split_ifs <;> omega
    · rw [if_neg]
      · exact hold
      · rw [Bool.and_eq_true, decide_eq_true_eq, howner, hen]
        exact fun h => hmore ⟨h.1.symm, h.2⟩

theorem SubscriptionSet.catalogued {d d' : Db} {ownerId : Uuid} {enabled : Bool}
    (h : SubscriptionSet d ownerId enabled d') (hd : d.Catalogued) : d'.Catalogued where
  channelIds := h.channels.ids hd.channelIds
  usernames := h.channels.usernames hd.usernames
  subscriptionIds := by
    obtain ⟨selected, -, ⟨s, -, -, heq, -⟩ | ⟨s, -, -, -, heq, hid, -, -⟩⟩ := h.subscriptions
    · rw [heq]
      exact hd.subscriptionIds.update fun _ _ => rfl
    · rw [heq]
      exact hd.subscriptionIds.snoc hid
  pairs := by
    obtain ⟨selected, -, ⟨s, -, -, heq, -⟩ | ⟨s, -, -, -, heq, -, hpair, -⟩⟩ := h.subscriptions
    · rw [heq]
      exact hd.pairs.update fun _ _ => rfl
    · rw [heq]
      exact hd.pairs.snoc hpair
  known r hr := by
    have kept : ∀ s ∈ d.subscriptions, ∃ c ∈ d'.channels, c.channelId = s.channelId := fun s hs => by
      obtain ⟨c, hc, hid⟩ := hd.known s hs
      exact ⟨c, h.channels.kept hc, hid⟩
    obtain ⟨selected, hknown, ⟨s, -, -, heq, -⟩ | ⟨s, -, hsel, -, heq, -, -, -⟩⟩ := h.subscriptions
    · rw [heq] at hr
      obtain ⟨o, ho, ⟨-, rfl⟩ | ⟨-, rfl⟩⟩ := mem_updateWhere.mp hr
      · exact kept o ho
      · exact kept r ho
    · rw [heq] at hr
      rcases List.mem_append.mp hr with hr | hr
      · exact kept r hr
      · rw [List.mem_singleton.mp hr, hsel]
        exact hknown
  limit o := h.limit hd o

/-! ## Changes -/

section
variable {C : Contracts} {K : Message → Prop} {w : Crew} {k : Kind} {d d' : Db}

/-- only `set_subscription` writes channels and subscriptions. -/
theorem Change.subscriptionSet (h : Change C K w k d d') :
    (d'.channels = d.channels ∧ d'.subscriptions = d.subscriptions) ∨
      ∃ ownerId enabled, SubscriptionSet d ownerId enabled d' := by
  have hc := h.frame .channels
  have hs := h.frame .subscriptions
  cases h with
  | @subscription m d d' c messageId sha _ h =>
    obtain ⟨s, d₁, ob, hset, -, rfl⟩ := h.effect
    obtain ⟨hgrow, hsub⟩ := setSubscription_sets hset
    exact .inr ⟨c.owner, c.active, hgrow, hsub⟩
  | _ => exact .inl ⟨hc (by decide), hs (by decide)⟩

theorem Change.channelsGrow (h : Change C K w k d d') : ChannelsGrow d d' := by
  rcases h.subscriptionSet with ⟨hc, -⟩ | ⟨_, _, hs⟩
  · exact .inl hc
  · exact hs.channels

/-- **Every change keeps channels and subscriptions catalogued.** -/
theorem Change.catalogued (h : Change C K w k d d') (hd : d.Catalogued) : d'.Catalogued := by
  rcases h.subscriptionSet with ⟨hc, hs⟩ | ⟨_, _, hset⟩
  · exact hd.same hc hs
  · exact hset.catalogued hd

end

end ChannelDigests
