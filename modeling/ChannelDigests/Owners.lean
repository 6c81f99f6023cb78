import ChannelDigests.Atomicity
import ChannelDigests.SubscriptionCalls
import ChannelDigests.Lib.Abreast
import ChannelDigests.Lib.Alike

/-!
# Owners beside each other

Subscription and run commands of many owners are handled one after the other.  An owner's commands
are handled alike when the commands of all other owners are left out, unless one of those took a
key that is not scoped by its owner: a semantic key of the inbox, or an operation.

* `Delivered`, `dispositions`, `Db.afterAll`   histories of commands;
* `withoutOthers`         a history without the commands of other owners;
* `Db.ownView`            what a database holds of one owner;
* `Command.Clashes`       two commands that share a key;
* `Alike`                 the databases after the whole history and after the owner's part of it;
* `Alike.foreign`, `Alike.own`   one command more;
* `owners_apart`          **an owner's commands are handled as if they were alone**.
-/

namespace ChannelDigests
open Lib Prog

/-! ## Histories -/

/-- one delivery of a command, with the moments of its statements. -/
structure Delivered (C : Contracts) where
  kind : CommandKind
  bytes : C.Bytes
  moments : Nat → Moment

/-- what the database holds of one owner; a channel is known by its username. -/
structure OwnView where
  subscriptions : List (Uuid × Option String × Instant × Bool)
  runs : List Run
  reports : List OutboxMessage
  deriving DecidableEq

def Db.ownView (d : Db) (owner : Uuid) : OwnView where
  subscriptions := (d.subscriptions.filter fun s => s.ownerId = owner).map fun s =>
    (s.subscriptionId, d.usernameOf s, s.firstActivatedAt, s.enabled)
  runs := d.runs.filter fun r => r.ownerId = owner
  reports := d.outbox.filter fun o => o.ownerId = owner

section
variable {C : Contracts} (language : OutputLanguage)

namespace Delivered
variable (x : Delivered C)

/-- the `n`-th question of the handling is answered by its `n`-th moment; no other one is asked. -/
def answer : Nat → (q : Question) → q.Answer
  | n, .moment => x.moments n
  | _, .resolve _ => .elapsed
  | _, .fetch _ _ _ => .elapsed
  | _, .publish _ => false

/-- the command that is delivered, none when the delivery is refused. -/
def command : Option Command :=
  match received C language x.kind.subject.transport x.bytes with
  | some (.command c) => some c
  | _ => none

/-- the handling: its disposition and the database that it leaves. -/
def handled (d : Db) : Except Empty DeliveryDisposition × Db :=
  ((handle C language x.kind.subject.transport x.bytes).conduct x.answer 0 d).1

/-- the delivery is no command of another owner. -/
def isOf (owner : Uuid) : Bool := (x.command language).all fun c => c.ownerId = owner

/-- the handling may draw the identity. -/
def draws (id : Uuid) : Prop := ∃ n i, (x.moments n).ids i = id

variable {language x} in
/-- what is received is a subscription or run command. -/
theorem received_command {message : Message}
    (h : received C language x.kind.subject.transport x.bytes = some message) :
    ∃ c : Command, message = .command c ∧ c.subject = x.kind.subject := by
  have hcommand : receivedCommand C language x.kind.subject x.bytes = some message := by
    unfold received at h
    cases hk : x.kind with
    | subscription => rwa [hk] at h
    | run => rwa [hk] at h
  unfold receivedCommand at hcommand
  split at hcommand
  · cases hcommand
  split_ifs at hcommand
  cases hk : x.kind with
  | subscription =>
    rw [hk] at hcommand
    dsimp only [CommandKind.subject, receivedSubscription] at hcommand
    split at hcommand
    · obtain ⟨_, _, _, rfl⟩ := receivedUnreadable_eq hcommand
      exact ⟨_, rfl, rfl⟩
    · split_ifs at hcommand
      cases hcommand
      exact ⟨_, rfl, rfl⟩
  | run =>
    rw [hk] at hcommand
    dsimp only [CommandKind.subject, receivedRun] at hcommand
    split at hcommand
    · obtain ⟨_, _, _, rfl⟩ := receivedUnreadable_eq hcommand
      exact ⟨_, rfl, rfl⟩
    · split_ifs at hcommand
      cases hcommand
      exact ⟨_, rfl, rfl⟩

end Delivered

/-- the history without the commands of other owners. -/
def withoutOthers (owner : Uuid) (history : List (Delivered C)) : List (Delivered C) :=
  history.filter fun x => x.isOf language owner

/-- the deliveries of a history with their dispositions. -/
def dispositions : List (Delivered C) → Db → List (Delivered C × Except Empty DeliveryDisposition)
  | [], _ => []
  | x :: history, d =>
    (x, (x.handled language d).1) :: dispositions history (x.handled language d).2

/-- the database after a history. -/
def Db.afterAll (d : Db) (history : List (Delivered C)) : Db :=
  history.foldl (fun d x => (x.handled language d).2) d

end

/-- the run of a run command. -/
def Command.digestRun : Command → Option Uuid
  | .run _ c => some c.digestRunId
  | _ => none

/-- the commands share the semantic key of the inbox, or their operation. -/
def Command.Clashes (c c' : Command) : Prop :=
  (c.subject = c'.subject ∧ c.semanticKey = c'.semanticKey) ∨ c.operationId = c'.operationId

/-- message identities, run identities and drawn identities are all distinct. -/
structure AllDistinct {C : Contracts} (language : OutputLanguage) (history : List (Delivered C)) :
    Prop where
  messages : history.Pairwise fun x y => ∀ c c', x.command language = some c →
    y.command language = some c' → c.messageId ≠ c'.messageId
  runs : history.Pairwise fun x y => ∀ c c' id, x.command language = some c →
    y.command language = some c' → c.digestRun = some id → c'.digestRun ≠ some id
  drawn : history.Pairwise fun x y => ∀ id, x.draws id → ¬ y.draws id

/-- no command of another owner shares a key with a later one of the owner. -/
def Unclashed {C : Contracts} (language : OutputLanguage) (owner : Uuid)
    (history : List (Delivered C)) : Prop :=
  history.Pairwise fun x y => ∀ c c', x.command language = some c → y.command language = some c' →
    c.ownerId ≠ owner → c'.ownerId = owner → ¬ c.Clashes c'

/-! ## Subscriptions -/

/-- the same subscription in two databases, under channels of one username. -/
def SameSubscription (d d' : Db) (s s' : Subscription) : Prop :=
  s' = { s with channelId := s'.channelId } ∧ ∃ c ∈ d.channels, ∃ c' ∈ d'.channels,
    c.channelId = s.channelId ∧ c'.channelId = s'.channelId ∧ c'.username = c.username

/-- two databases with the same subscriptions of the owner. -/
structure SubscribedAlike (owner : Uuid) (d d' : Db) : Prop where
  left : d.Catalogued
  right : d'.Catalogued
  rows : List.Forall₂ (SameSubscription d d') (d.subscriptions.filter fun s => s.ownerId = owner)
    (d'.subscriptions.filter fun s => s.ownerId = owner)

section
variable {owner : Uuid} {d d' d₁ d₁' : Db} {s s' : Subscription}

theorem SameSubscription.grow (h : SameSubscription d d' s s')
    (hd : ∀ c ∈ d.channels, c ∈ d₁.channels) (hd' : ∀ c ∈ d'.channels, c ∈ d₁'.channels) :
    SameSubscription d₁ d₁' s s' := by
  obtain ⟨he, c, hc, c', hc', hids⟩ := h
  exact ⟨he, c, hd c hc, c', hd' c' hc', hids⟩

theorem SameSubscription.usernameOf (h : SameSubscription d d' s s') (hd : d.Catalogued)
    (hd' : d'.Catalogued) : d.usernameOf s = d'.usernameOf s' := by
  obtain ⟨-, c, hc, c', hc', hid, hid', hname⟩ := h
  have found : ∀ {d : Db} {c : Channel} {id : Uuid}, d.Catalogued → c ∈ d.channels →
      c.channelId = id → d.channels.find? (fun c => c.channelId = id) = some c := by
    rintro d c _ hd hc rfl
    exact hd.channelIds.find? hc (decide_eq_true rfl) fun o _ ho => of_decide_eq_true ho
  unfold Db.usernameOf
  rw [found hd hc hid, found hd' hc' hid', Option.map_some, Option.map_some, hname]

namespace SubscribedAlike

/-- the views of the two databases are equal. -/
theorem view (h : SubscribedAlike owner d d') :
    (d.ownView owner).subscriptions = (d'.ownView owner).subscriptions := by
  refine map_alike h.rows fun s s' hs => ?_
  rw [hs.usernameOf h.left h.right, hs.1]

theorem activeCount (h : SubscribedAlike owner d d') :
    d.activeCount owner = d'.activeCount owner := by
  have counted : ∀ rows : List Subscription, rows.countP (fun s => s.ownerId = owner && s.enabled) =
      (rows.filter fun s => s.ownerId = owner).countP (·.enabled) := fun rows => by
    rw [List.countP_filter]
    exact List.countP_congr fun s _ => by rw [Bool.and_comm]
  unfold Db.activeCount
  rw [counted, counted]
  exact countP_alike h.rows fun s s' hs => by rw [hs.1]

/-- a subscription of the owner is found in the other database. -/
theorem subscribed (h : SubscribedAlike owner d d') {username : String}
    (hs : d.subscribed owner username = some s) :
    ∃ s', d'.subscribed owner username = some s' ∧ SameSubscription d d' s s' := by
  obtain ⟨hmem, howner, c, hc, hid, hname⟩ := (subscribed_iff h.left).mp hs
  obtain ⟨s', hs', hsame⟩ := mem_left h.rows (List.mem_filter.mpr ⟨hmem, decide_eq_true howner⟩)
  obtain ⟨hmem', howner'⟩ := List.mem_filter.mp hs'
  refine ⟨s', (subscribed_iff h.right).mpr ⟨hmem', of_decide_eq_true howner', ?_⟩, hsame⟩
  obtain ⟨-, c₁, hc₁, c', hc', hid₁, hid', hname'⟩ := hsame
  obtain rfl := h.left.channelIds.eq hc hc₁ (hid.trans hid₁.symm)
  exact ⟨c', hc', hid', hname'.trans hname⟩

theorem subscribed_none (h : SubscribedAlike owner d d') {username : String}
    (hs : d.subscribed owner username = none) : d'.subscribed owner username = none := by
  rcases hs' : d'.subscribed owner username with _ | s'
  · rfl
  · obtain ⟨hmem', howner', c', hc', hid', hname'⟩ := (subscribed_iff h.right).mp hs'
    obtain ⟨s, hmem, hsame⟩ :=
      mem_right h.rows (List.mem_filter.mpr ⟨hmem', decide_eq_true howner'⟩)
    obtain ⟨hmem, howner⟩ := List.mem_filter.mp hmem
    obtain ⟨-, c, hc, c₁, hc₁, hid, hid₁, hname⟩ := hsame
    obtain rfl := h.right.channelIds.eq hc' hc₁ (hid'.trans hid₁.symm)
    have hfound : d.subscribed owner username = some s := (subscribed_iff h.left).mpr
      ⟨hmem, of_decide_eq_true howner, c, hc, hid, hname.symm.trans hname'⟩
    rw [hs] at hfound
    cases hfound

end SubscribedAlike

variable {call : SubscriptionCall}

theorem setSubscription_leaves (hd : d.Catalogued)
    (h : d.setSubscription call.subscriptionId call.channelId call.ownerId call.username
      call.enabled call.requestedAt = .row s d₁) : call.Leaves d s d₁ := by
  rcases call.cases hd with ⟨-, he⟩ | ⟨-, he⟩ | ⟨-, s', d', he, hl⟩ <;>
    rw [settle_tx, h] at he <;> cases he
  exact hl

theorem withChannel_of_free (hfree : ¬ call.taken d) :
    ∃ selected d₁, d.withChannel call.channelId (lower call.username) = some (selected, d₁) := by
  unfold Db.withChannel
  split
  · exact ⟨_, _, rfl⟩
  · rw [if_neg]
    · exact ⟨_, _, rfl⟩
    · intro hany
      obtain ⟨c, hc, he⟩ := List.any_eq_true.mp hany
      exact hfree (.inl ⟨c, hc, of_decide_eq_true he⟩)

namespace SubscribedAlike

theorem same (h : SubscribedAlike owner d d') (hc : d₁.channels = d.channels)
    (hs : d₁.subscriptions = d.subscriptions) (hc' : d₁'.channels = d'.channels)
    (hs' : d₁'.subscriptions = d'.subscriptions) : SubscribedAlike owner d₁ d₁' where
  left := h.left.same hc hs
  right := h.right.same hc' hs'
  rows := by
    rw [hs, hs']
    exact h.rows.imp fun _ _ hrow =>
      hrow.grow (fun _ hmem => hc.symm ▸ hmem) fun _ hmem => hc'.symm ▸ hmem

/-- a call of another owner. -/
theorem foreign (h : SubscribedAlike owner d d') (hl : call.Leaves d s d₁)
    (hne : call.ownerId ≠ owner) : SubscribedAlike owner d₁ d' where
  left := hl.catalogued
  right := h.right
  rows := by
    rw [hl.others owner hne.symm]
    exact h.rows.imp fun _ _ hs => hs.grow (fun _ => hl.grows.kept) fun _ => id

/-- **A call of the owner** under fresh identities: it is refused in both databases, or it leaves
the same subscriptions. -/
theorem setSubscription (h : SubscribedAlike call.ownerId d d') (hfree : ¬ call.taken d)
    (hfree' : ¬ call.taken d') :
    (d.setSubscription call.subscriptionId call.channelId call.ownerId call.username call.enabled
        call.requestedAt = .limit ∧
      d'.setSubscription call.subscriptionId call.channelId call.ownerId call.username call.enabled
        call.requestedAt = .limit) ∨
    ∃ s s' d₁ d₁', d.setSubscription call.subscriptionId call.channelId call.ownerId call.username
        call.enabled call.requestedAt = .row s d₁ ∧
      d'.setSubscription call.subscriptionId call.channelId call.ownerId call.username call.enabled
        call.requestedAt = .row s' d₁' ∧ SubscribedAlike call.ownerId d₁ d₁' := by
  obtain ⟨selected, d₀, hw⟩ := withChannel_of_free hfree
  obtain ⟨selected', d₀', hw'⟩ := withChannel_of_free hfree'
  have hsel := withChannel_selects h.left hw
  have hsel' := withChannel_selects h.right hw'
  have hset := setSubscription_match h.left hw
  have hset' := setSubscription_match h.right hw'
  have new : ∀ {d : Db}, ¬ call.taken d →
      ¬ d.subscriptions.any (fun s => s.subscriptionId = call.subscriptionId) = true := by
    intro d hf hany
    obtain ⟨s, hs, he⟩ := List.any_eq_true.mp hany
    exact hf (.inr ⟨s, hs, of_decide_eq_true he⟩)
  rcases ho : d.subscribed call.ownerId call.username with _ | o
  · have ho' := h.subscribed_none ho
    rw [ho] at hset
    rw [ho', ← h.activeCount] at hset'
    dsimp only at hset hset'
    by_cases hlimit : (call.enabled && activeLimit ≤ d.activeCount call.ownerId) = true
    · rw [if_pos hlimit] at hset hset'
      exact .inl ⟨hset, hset'⟩
    · rw [if_neg hlimit, if_neg (new hfree)] at hset
      rw [if_neg hlimit, if_neg (new hfree')] at hset'
      refine .inr ⟨_, _, _, _, hset, hset', (setSubscription_sets hset).catalogued h.left,
        (setSubscription_sets hset').catalogued h.right, ?_⟩
      have hrow : ∀ {d : Db} (id : Uuid), d.subscribed call.ownerId call.username = none →
          call.row d id =
            ⟨call.subscriptionId, call.ownerId, id, call.requestedAt, call.enabled⟩ := by
        intro d id hnone
        unfold SubscriptionCall.row
        rw [hnone]
      show List.Forall₂ _ ((d.subscriptions ++ [call.row d selected]).filter _)
        ((d'.subscriptions ++ [call.row d' selected']).filter _)
      rw [hrow selected ho, hrow selected' ho', List.filter_append, List.filter_append,
        List.filter_singleton, List.filter_singleton]
      simp only [decide_true]
      refine List.rel_append (h.rows.imp fun _ _ hs => hs.grow (fun _ => hsel.grows.kept)
        fun _ => hsel'.grows.kept) (.cons ⟨rfl, ?_⟩ .nil)
      obtain ⟨c, hc, hid, hname⟩ := hsel.named
      obtain ⟨c', hc', hid', hname'⟩ := hsel'.named
      exact ⟨c, hc, c', hc', hid, hid', hname'.trans hname.symm⟩
  · obtain ⟨o', ho', hsame⟩ := h.subscribed ho
    have heq := hsame.1
    rw [ho] at hset
    rw [ho', ← h.activeCount] at hset'
    dsimp only at hset hset'
    rw [show o'.enabled = o.enabled by rw [heq]] at hset'
    by_cases hlimit :
        (call.enabled && !o.enabled && activeLimit ≤ d.activeCount call.ownerId) = true
    · rw [if_pos hlimit] at hset hset'
      exact .inl ⟨hset, hset'⟩
    · rw [if_neg hlimit] at hset hset'
      refine .inr ⟨_, _, _, _, hset, hset', (setSubscription_sets hset).catalogued h.left,
        (setSubscription_sets hset').catalogued h.right, ?_⟩
      have hid : o'.subscriptionId = o.subscriptionId := by rw [heq]
      have switched : ∀ (id : Uuid) (rows : List Subscription),
          (updateWhere (fun s => decide (s.subscriptionId = id))
            (fun s => { s with enabled := call.enabled }) rows).filter
              (fun s => s.ownerId = call.ownerId) =
          (rows.filter fun s => s.ownerId = call.ownerId).map fun s =>
            if decide (s.subscriptionId = id) then { s with enabled := call.enabled } else s :=
        fun id rows => filter_updateWhere
          (u := fun s : Subscription => { s with enabled := call.enabled }) fun _ _ => rfl
      show List.Forall₂ _ ((updateWhere _ _ d.subscriptions).filter _)
        ((updateWhere _ _ d'.subscriptions).filter _)
      rw [switched, switched, hid, List.forall₂_map_left_iff, List.forall₂_map_right_iff]
      refine h.rows.imp fun s s' hs => ?_
      have hids : s'.subscriptionId = s.subscriptionId := by rw [hs.1]
      have hgrown : SameSubscription d₀ d₀' s s' := hs.grow (fun _ => hsel.grows.kept)
        fun _ => hsel'.grows.kept
      rw [hids]
      split_ifs
      · refine ⟨?_, hgrown.2⟩
        rw [hs.1]
      · exact hgrown

end SubscribedAlike

end

/-! ## The other tables -/

/-- the same runs of the owner; every other run is of a command in `F`. -/
structure RunsAlike (owner : Uuid) (F : Command → Prop) (rows rows' : List Run) : Prop where
  own : rows.filter (fun r => r.ownerId = owner) = rows'.filter fun r => r.ownerId = owner
  foreign : ∀ r ∈ rows, r.ownerId = owner ∨ ∃ c, F c ∧ c.digestRun = some r.runId
  only : ∀ r ∈ rows', r.ownerId = owner

/-- the same inbox, but for rows of commands in `F`. -/
structure InboxAlike (F : Command → Prop) (rows rows' : List InboxMessage) : Prop where
  kept : ∀ row ∈ rows', row ∈ rows
  foreign : ∀ row ∈ rows, row ∈ rows' ∨ ∃ c, F c ∧ row.messageId = c.messageId ∧
    row.subject = c.subject ∧ row.semanticKey = .text c.semanticKey

/-- the same reports of the owner; every other row reports to a command in `F`. -/
structure OutboxAlike (owner : Uuid) (F : Command → Prop) (I : Uuid → Prop)
    (rows rows' : List OutboxMessage) : Prop where
  own : rows.filter (fun o => o.ownerId = owner) = rows'.filter fun o => o.ownerId = owner
  foreign : ∀ o ∈ rows, o.ownerId = owner ∨
    ∃ c, F c ∧ ∃ status, o.key = .report c.operationId status
  only : ∀ o ∈ rows', o.ownerId = owner
  drawn : ∀ o ∈ rows, I o.outboxId
  drawn' : ∀ o ∈ rows', I o.outboxId

/-- the identities of channels and subscriptions are drawn ones. -/
structure Db.Drawn (I : Uuid → Prop) (d : Db) : Prop where
  channels : ∀ c ∈ d.channels, I c.channelId
  subscriptions : ∀ s ∈ d.subscriptions, I s.subscriptionId

/-- **The databases after a history and after the owner's part of it**: `F` holds the commands of
the others, and `I` the identities drawn so far. -/
structure Alike (owner : Uuid) (F : Command → Prop) (I : Uuid → Prop) (d d' : Db) : Prop where
  subscribed : SubscribedAlike owner d d'
  runs : RunsAlike owner F d.runs d'.runs
  inbox : InboxAlike F d.inbox d'.inbox
  outbox : OutboxAlike owner F I d.outbox d'.outbox
  drawn : d.Drawn I
  drawn' : d'.Drawn I

section
variable {owner : Uuid} {F F' : Command → Prop} {I I' : Uuid → Prop} {d d' : Db}

theorem RunsAlike.mono {rows rows' : List Run} (h : RunsAlike owner F rows rows')
    (hF : ∀ c, F c → F' c) : RunsAlike owner F' rows rows' :=
  ⟨h.own, fun r hr => (h.foreign r hr).imp_right fun ⟨c, hc, hid⟩ => ⟨c, hF c hc, hid⟩, h.only⟩

theorem InboxAlike.mono {rows rows' : List InboxMessage} (h : InboxAlike F rows rows')
    (hF : ∀ c, F c → F' c) : InboxAlike F' rows rows' :=
  ⟨h.kept, fun row hrow => (h.foreign row hrow).imp_right fun ⟨c, hc, hid⟩ => ⟨c, hF c hc, hid⟩⟩

theorem OutboxAlike.mono {rows rows' : List OutboxMessage} (h : OutboxAlike owner F I rows rows')
    (hF : ∀ c, F c → F' c) (hI : ∀ id, I id → I' id) : OutboxAlike owner F' I' rows rows' :=
  ⟨h.own, fun o ho => (h.foreign o ho).imp_right fun ⟨c, hc, hid⟩ => ⟨c, hF c hc, hid⟩, h.only,
    fun o ho => hI _ (h.drawn o ho), fun o ho => hI _ (h.drawn' o ho)⟩

theorem Db.Drawn.mono (h : d.Drawn I) (hI : ∀ id, I id → I' id) : d.Drawn I' :=
  ⟨fun c hc => hI _ (h.channels c hc), fun s hs => hI _ (h.subscriptions s hs)⟩

theorem Db.Drawn.same {d₁ : Db} (h : d.Drawn I) (hc : d₁.channels = d.channels)
    (hs : d₁.subscriptions = d.subscriptions) : d₁.Drawn I :=
  ⟨hc.symm ▸ h.channels, hs.symm ▸ h.subscriptions⟩

theorem Alike.mono (h : Alike owner F I d d') (hF : ∀ c, F c → F' c) (hI : ∀ id, I id → I' id) :
    Alike owner F' I' d d' :=
  ⟨h.subscribed, h.runs.mono hF, h.inbox.mono hF, h.outbox.mono hF hI, h.drawn.mono hI,
    h.drawn'.mono hI⟩

theorem Alike.empty : Alike owner (fun _ => False) (fun _ => False) Db.empty Db.empty := by
  have nothing : ∀ {ρ : Type} {p : ρ → Prop}, ∀ r ∈ ([] : List ρ), p r :=
    fun _ hr => absurd hr List.not_mem_nil
  exact ⟨⟨.empty, .empty, .nil⟩, ⟨rfl, nothing, nothing⟩, ⟨nothing, nothing⟩,
    ⟨rfl, nothing, nothing, nothing, nothing⟩, ⟨nothing, nothing⟩, ⟨nothing, nothing⟩⟩

/-! ## What the owner's command finds -/

/-- a command of the owner shares nothing with the commands of the others. -/
structure Apart (F : Command → Prop) (c : Command) : Prop where
  message : ∀ f, F f → f.messageId ≠ c.messageId
  clash : ∀ f, F f → ¬ f.Clashes c
  run : ∀ f id, F f → f.digestRun = some id → c.digestRun ≠ some id

variable {c : Command}

/-- the inbox knows the command in both databases, or in neither. -/
theorem InboxAlike.holds (h : InboxAlike F d.inbox d'.inbox) (hc : Apart F c) :
    d.inboxHolds c.messageId c.subject (.text c.semanticKey) =
      d'.inboxHolds c.messageId c.subject (.text c.semanticKey) := by
  refine Bool.eq_iff_iff.mpr ?_
  unfold Db.inboxHolds
  rw [List.any_eq_true, List.any_eq_true]
  constructor
  · intro ⟨row, hrow, hp⟩
    rcases h.foreign row hrow with hrow | ⟨f, hf, hid, hs, hk⟩
    · exact ⟨row, hrow, hp⟩
    · rw [Bool.or_eq_true, Bool.and_eq_true, decide_eq_true_eq, decide_eq_true_eq,
        decide_eq_true_eq, hid, hs, hk] at hp
      rcases hp with hp | ⟨h1, h2⟩
      · exact absurd hp (hc.message f hf)
      · exact absurd (.inl ⟨h1, InboxKey.text.inj h2⟩) (hc.clash f hf)
  · intro ⟨row, hrow, hp⟩
    exact ⟨row, h.kept row hrow, hp⟩

theorem InboxAlike.snoc {rows rows' : List InboxMessage} (h : InboxAlike F rows rows')
    (row : InboxMessage) : InboxAlike F (rows ++ [row]) (rows' ++ [row]) := by
  refine ⟨fun o ho => ?_, fun o ho => ?_⟩
  · rcases List.mem_append.mp ho with ho | ho
    · exact List.mem_append_left _ (h.kept o ho)
    · exact List.mem_append_right _ ho
  · rcases List.mem_append.mp ho with ho | ho
    · exact (h.foreign o ho).imp_left (List.mem_append_left _)
    · exact .inl (List.mem_append_right _ ho)

/-- an update of the inbox that keeps the keys. -/
theorem InboxAlike.update {rows rows' : List InboxMessage} (h : InboxAlike F rows rows')
    {p : InboxMessage → Bool} {u : InboxMessage → InboxMessage}
    (hu : ∀ r, (u r).messageId = r.messageId ∧ (u r).subject = r.subject ∧
      (u r).semanticKey = r.semanticKey) :
    InboxAlike F (updateWhere p u rows) (updateWhere p u rows') := by
  refine ⟨fun row hrow => ?_, fun row hrow => ?_⟩
  · obtain ⟨o, ho, hcase⟩ := mem_updateWhere.mp hrow
    exact mem_updateWhere.mpr ⟨o, h.kept o ho, hcase⟩
  · obtain ⟨o, ho, hcase⟩ := mem_updateWhere.mp hrow
    rcases h.foreign o ho with ho' | ⟨c, hc, hid, hs, hk⟩
    · exact .inl (mem_updateWhere.mpr ⟨o, ho', hcase⟩)
    · refine .inr ⟨c, hc, ?_⟩
      rcases hcase with ⟨-, rfl⟩ | ⟨-, rfl⟩
      · obtain ⟨h₁, h₂, h₃⟩ := hu o
        exact ⟨h₁.trans hid, h₂.trans hs, h₃.trans hk⟩
      · exact ⟨hid, hs, hk⟩

theorem mem_of_own {ρ : Type} {p : ρ → Bool} {rows rows' : List ρ}
    (h : rows.filter p = rows'.filter p) {r : ρ} (hr : r ∈ rows) (hp : p r = true) : r ∈ rows' := by
  have hmem := List.mem_filter.mpr ⟨hr, hp⟩
  rw [h] at hmem
  exact (List.mem_filter.mp hmem).1

/-- the outbox has a key of the command in both databases, or in neither. -/
theorem OutboxAlike.holds (h : OutboxAlike owner F I d.outbox d'.outbox) (hc : Apart F c)
    (status : OperationStatus) :
    d.outboxHolds (.report c.operationId status) =
      d'.outboxHolds (.report c.operationId status) := by
  refine Bool.eq_iff_iff.mpr ?_
  unfold Db.outboxHolds
  rw [List.any_eq_true, List.any_eq_true]
  constructor
  · intro ⟨o, ho, hk⟩
    rcases h.foreign o ho with howner | ⟨f, hf, status', hkey⟩
    · exact ⟨o, mem_of_own h.own ho (decide_eq_true howner), hk⟩
    · rw [decide_eq_true_eq, hkey] at hk
      injection hk with hop _
      exact absurd (.inr hop) (hc.clash f hf)
  · intro ⟨o, ho, hk⟩
    exact ⟨o, mem_of_own h.own.symm ho (decide_eq_true (h.only o ho)), hk⟩

theorem OutboxAlike.snoc {rows rows' : List OutboxMessage} (h : OutboxAlike owner F I rows rows')
    {row : OutboxMessage} (ho : row.ownerId = owner) (hI : ∀ id, I id → I' id)
    (hid : I' row.outboxId) : OutboxAlike owner F I' (rows ++ [row]) (rows' ++ [row]) := by
  have h := h.mono (fun _ => id) hI
  have last : ∀ {p : OutboxMessage → Prop} {rows : List OutboxMessage}, (∀ o ∈ rows, p o) → p row →
      ∀ o ∈ rows ++ [row], p o := by
    intro p rows hrows hrow o ho
    rcases List.mem_append.mp ho with ho | ho
    · exact hrows o ho
    · exact List.mem_singleton.mp ho ▸ hrow
  refine ⟨?_, last h.foreign (.inl ho), last h.only ho, last h.drawn hid, last h.drawn' hid⟩
  rw [List.filter_append, List.filter_append, h.own]

/-- a run may be inserted in both databases, is there in both, or is refused in both. -/
theorem RunsAlike.insertRun (h : RunsAlike owner F d.runs d'.runs) {run : Run}
    (ho : run.ownerId = owner) (hid : ∀ f, F f → f.digestRun ≠ some run.runId) :
    (d.insertRun run = none ∧ d'.insertRun run = none) ∨
    (d.insertRun run = some (false, d) ∧ d'.insertRun run = some (false, d') ∧
      (d.runs.find? fun r => r.naturalKey = run.naturalKey) =
        d'.runs.find? fun r => r.naturalKey = run.naturalKey) ∨
    (d.insertRun run = some (true, { d with runs := d.runs ++ [run] }) ∧
      d'.insertRun run = some (true, { d' with runs := d'.runs ++ [run] }) ∧
      RunsAlike owner F (d.runs ++ [run]) (d'.runs ++ [run])) := by
  -- what only rows of the owner satisfy is found in both.
  have found : ∀ rows : List Run, (rows.find? fun r => r.naturalKey = run.naturalKey) =
      (rows.filter fun r => r.ownerId = owner).find? fun r => r.naturalKey = run.naturalKey := by
    intro rows
    rw [List.find?_filter]
    congr 1
    funext r
    by_cases hk : r.naturalKey = run.naturalKey
    · have howner : r.ownerId = owner := (congrArg (·.1) hk).trans ho
      simp [hk, howner]
    · simp [hk]
  have hfind : (d.runs.find? fun r => r.naturalKey = run.naturalKey) =
      d'.runs.find? fun r => r.naturalKey = run.naturalKey := by
    rw [found d.runs, found d'.runs, h.own]
  have same : ∀ p : Run → Bool, (∀ r ∈ d.runs, p r = true → r.ownerId = owner) →
      d.runs.any p = d'.runs.any p := by
    intro p hp
    refine Bool.eq_iff_iff.mpr ?_
    rw [List.any_eq_true, List.any_eq_true]
    constructor
    · intro ⟨r, hr, he⟩
      exact ⟨r, mem_of_own h.own hr (decide_eq_true (hp r hr he)), he⟩
    · intro ⟨r, hr, he⟩
      exact ⟨r, mem_of_own h.own.symm hr (decide_eq_true (h.only r hr)), he⟩
  have hkeys := same (fun r => r.naturalKey = run.naturalKey) fun r _ hk =>
    (congrArg (·.1) (of_decide_eq_true hk)).trans ho
  have hids := same (fun r => r.runId = run.runId) fun r hr he => by
    refine (h.foreign r hr).resolve_right fun ⟨f, hf, hrun⟩ => ?_
    rw [of_decide_eq_true he] at hrun
    exact hid f hf hrun
  unfold Db.insertRun
  rw [← hkeys, ← hids]
  split_ifs
  · exact .inl ⟨rfl, rfl⟩
  · exact .inr (.inl ⟨rfl, rfl, hfind⟩)
  · exact .inl ⟨rfl, rfl⟩
  · refine .inr (.inr ⟨rfl, rfl, ?_, fun r hr => ?_, fun r hr => ?_⟩)
    · rw [List.filter_append, List.filter_append, h.own]
    · rcases List.mem_append.mp hr with hr | hr
      · exact h.foreign r hr
      · exact .inl (List.mem_singleton.mp hr ▸ ho)
    · rcases List.mem_append.mp hr with hr | hr
      · exact h.only r hr
      · exact List.mem_singleton.mp hr ▸ ho

/-- an update of the runs that keeps identities and owners. -/
theorem RunsAlike.update {rows rows' : List Run} (h : RunsAlike owner F rows rows') {p : Run → Bool}
    {u : Run → Run} (hu : ∀ r, (u r).runId = r.runId ∧ (u r).ownerId = r.ownerId) :
    RunsAlike owner F (updateWhere p u rows) (updateWhere p u rows') := by
  have kept : ∀ r : Run, (decide ((u r).ownerId = owner)) = decide (r.ownerId = owner) :=
    fun r => by rw [(hu r).2]
  refine ⟨?_, fun r hr => ?_, fun r hr => ?_⟩
  · rw [filter_updateWhere fun r _ => kept r, filter_updateWhere fun r _ => kept r, h.own]
  · obtain ⟨o, ho, ⟨-, rfl⟩ | ⟨-, rfl⟩⟩ := mem_updateWhere.mp hr
    · rw [(hu o).1, (hu o).2]
      exact h.foreign o ho
    · exact h.foreign r ho
  · obtain ⟨o, ho, ⟨-, rfl⟩ | ⟨-, rfl⟩⟩ := mem_updateWhere.mp hr
    · rw [(hu o).2]
      exact h.only o ho
    · exact h.only r ho

/-! ## The owner's command, statement by statement -/

/-- the identities of the moment are new, and drawn from now on. -/
structure Draws (I I' : Uuid → Prop) (m : Moment) : Prop where
  kept : ∀ id, I id → I' id
  free : ∀ i, ¬ I (m.ids i)
  drawn : ∀ i, I' (m.ids i)

section
variable {C : Contracts} {ε : Type} {lost : ε}

theorem abreast_claim {row : InboxMessage} {Q : Bool → Db → Bool → Db → Prop}
    (hheld : d.inboxHolds row.messageId row.subject row.semanticKey =
      d'.inboxHolds row.messageId row.subject row.semanticKey)
    (hT : Q false d false d')
    (hF : d.inboxHolds row.messageId row.subject row.semanticKey = false →
      d'.inboxHolds row.messageId row.subject row.semanticKey = false →
      Q true { d with inbox := d.inbox ++ [row] } true { d' with inbox := d'.inbox ++ [row] }) :
    (insertInbox lost row).Abreast Q (insertInbox lost row) d d' := by
  refine abreast_change ?_
  rw [← hheld] at hF ⊢
  cases hh : d.inboxHolds row.messageId row.subject row.semanticKey with
  | true => exact hT
  | false => exact hF hh hh

/-- `set_subscription` of the owner, under identities that are not in use. -/
theorem abreast_setSubscription (call : SubscriptionCall)
    {Q : Option Subscription → Db → Option Subscription → Db → Prop}
    (h : SubscribedAlike call.ownerId d d') (hfree : ¬ call.taken d) (hfree' : ¬ call.taken d')
    (hlimit : Q none d none d')
    (hrow : ∀ s s' d₁ d₁', call.Leaves d s d₁ → call.Leaves d' s' d₁' →
      d₁ = { d with channels := d₁.channels, subscriptions := d₁.subscriptions } →
      d₁' = { d' with channels := d₁'.channels, subscriptions := d₁'.subscriptions } →
      SubscribedAlike call.ownerId d₁ d₁' → Q (some s) d₁ (some s') d₁') :
    (ChannelDigests.setSubscription call.subscriptionId call.channelId call.ownerId call.username
        call.enabled call.requestedAt).Abreast Q
      (ChannelDigests.setSubscription call.subscriptionId call.channelId call.ownerId call.username
        call.enabled call.requestedAt) d d' := by
  rcases h.setSubscription hfree hfree' with ⟨he, he'⟩ | ⟨s, s', d₁, d₁', he, he', hnew⟩
  · refine abreast_attempt (.inr ⟨none, d, none, d', ?_, ?_, hlimit⟩)
    · rw [he]
    · rw [he']
  · refine abreast_attempt (.inr ⟨some s, d₁, some s', d₁', ?_, ?_, ?_⟩)
    · rw [he]
    · rw [he']
    · exact hrow s s' d₁ d₁' (setSubscription_leaves h.left he) (setSubscription_leaves h.right he')
        (setSubscription_eq he) (setSubscription_eq he') hnew

theorem abreast_enqueue [FromReportError ε] {row : OperationReportRow} {id : Uuid} {now : Instant}
    {Q : Unit → Db → Unit → Db → Prop} (h : OutboxAlike owner F I d.outbox d'.outbox)
    (hc : Apart F c) (hop : row.operationId = c.operationId) (ho : row.ownerId = owner)
    (hI : ∀ id, I id → I' id) (hfree : ¬ I id) (hid : I' id)
    (hQ : ∀ ob ob', OutboxAlike owner F I' ob ob' →
      Q () { d with outbox := ob } () { d' with outbox := ob' }) :
    (row.enqueue C id now : Sql ε Unit).Abreast Q (row.enqueue C id now) d d' := by
  -- the row is there, or it is appended: its identity is fresh.
  have offered : ∀ {d : Db}, (∀ o ∈ d.outbox, I o.outboxId) →
      (if d.outboxHolds (row.outboxRow id now).key then Except.ok ((), d)
        else if d.outbox.any (fun r => r.outboxId = (row.outboxRow id now).outboxId) then
          .error (ofReport .storage : ε)
        else .ok ((), { d with outbox := d.outbox ++ [row.outboxRow id now] })) =
      .ok ((), { d with
        outbox := if d.outboxHolds (row.outboxRow id now).key then d.outbox
          else d.outbox ++ [row.outboxRow id now] }) := by
    intro d hd
    have hnone : d.outbox.any (fun r => r.outboxId = (row.outboxRow id now).outboxId) = false := by
      refine List.any_eq_false.mpr fun o hmem he => hfree ?_
      rw [← show o.outboxId = id from of_decide_eq_true he]
      exact hd o hmem
    rw [hnone, if_neg Bool.false_ne_true]
    split_ifs
    · rfl
    · rfl
  have hheld := h.holds hc row.report.status
  rw [← hop] at hheld
  refine abreast_bind (abreast_check (abreast_attempt (.inr ⟨_, _, _, _, offered h.drawn,
    offered h.drawn', hQ _ _ ?_⟩)))
  rw [show d.outboxHolds (row.outboxRow id now).key = d'.outboxHolds (row.outboxRow id now).key
    from hheld]
  split_ifs
  · exact h.mono (fun _ hf => hf) hI
  · exact h.snoc ho hI hid

theorem abreast_createDigestRun {run : Run} {Q : Option Uuid → Db → Option Uuid → Db → Prop}
    (h : RunsAlike owner F d.runs d'.runs) (ho : run.ownerId = owner)
    (hid : ∀ f, F f → f.digestRun ≠ some run.runId)
    (hQ : ∀ selected rs rs', RunsAlike owner F rs rs' →
      Q selected { d with runs := rs } selected { d' with runs := rs' }) :
    (createDigestRun run).Abreast Q (createDigestRun run) d d' := by
  refine abreast_attempt ?_
  rcases h.insertRun ho hid with ⟨he, he'⟩ | ⟨he, he', hfind⟩ | ⟨he, he', hnew⟩
  · exact .inl ⟨.storage, by rw [he], by rw [he']⟩
  · refine .inr ⟨_, d, _, d', by rw [he], by rw [he'], ?_⟩
    rw [hfind]
    exact hQ _ d.runs d'.runs h
  · exact .inr ⟨_, _, _, _, by rw [he], by rw [he'], hQ _ _ _ hnew⟩

theorem abreast_reportQueued {command : RunRequested} {messageId : Uuid} {m : Moment}
    {Q : Unit → Db → Unit → Db → Prop} (h : OutboxAlike owner F I d.outbox d'.outbox)
    (hc : Apart F c) (hop : command.operationId = c.operationId) (ho : command.owner = owner)
    (hm : Draws I I' m)
    (hQ : ∀ ob ob', OutboxAlike owner F I' ob ob' →
      Q () { d with outbox := ob } () { d' with outbox := ob' }) :
    (reportQueued C command messageId m).Abreast Q (reportQueued C command messageId m) d d' := by
  unfold reportQueued
  split_ifs
  · exact abreast_enqueue h hc hop ho hm.kept (hm.free 0) (hm.drawn 0) hQ
  · exact abreast_pure (hQ d.outbox d'.outbox (h.mono (fun _ hf => hf) hm.kept))

end

/-! ## The owner's command, transaction by transaction -/

/-- the same answer, and databases that are alike. -/
def EndsAlike {ε α : Type} (owner : Uuid) (F : Command → Prop) (I : Uuid → Prop) (x : Except ε α)
    (d : Db) (x' : Except ε α) (d' : Db) : Prop := x = x' ∧ Alike owner F I d d'

variable {C : Contracts} {m : Moment} {messageId : Uuid} {sha : Digest}

theorem rejectTx_alike (h : Alike owner F I d d') (hm : Draws I I' m) (hc : Apart F c)
    (ho : c.ownerId = owner) (reason : RejectionReason) :
    EndsAlike owner F I' (settle (rejectTx C (c.rejection sha reason) m) m.fuse d).1
      (settle (rejectTx C (c.rejection sha reason) m) m.fuse d).2
      (settle (rejectTx C (c.rejection sha reason) m) m.fuse d').1
      (settle (rejectTx C (c.rejection sha reason) m) m.fuse d').2 := by
  have hsame : Alike owner F I' d d' := h.mono (fun _ hf => hf) hm.kept
  refine settle_abreast m.fuse (fun e => ⟨rfl, hsame⟩) ?_
  unfold rejectTx
  refine abreast_bind (abreast_mark (abreast_bind (abreast_claim (h.inbox.holds hc) ?_
    fun hfree _ => ?_)))
  · exact abreast_mark ⟨rfl, hsame⟩
  · refine abreast_bind ?_
    refine abreast_enqueue h.outbox hc rfl ho hm.kept (hm.free 0) (hm.drawn 0)
      fun ob ob' hob => abreast_mark ⟨rfl, ?_⟩
    exact ⟨hsame.subscribed.same rfl rfl rfl rfl, hsame.runs, h.inbox.snoc _, hob,
      hsame.drawn.same rfl rfl, hsame.drawn'.same rfl rfl⟩

/-- the same verdict; a refused command leaves both databases as they were. -/
def JudgedAlike (owner : Uuid) (F : Command → Prop) (I : Uuid → Prop) (d₀ d₀' : Db)
    (x : Except IntakeError Verdict) (d : Db) (x' : Except IntakeError Verdict) (d' : Db) : Prop :=
  x = x' ∧ Alike owner F I d d' ∧ (x = .ok .refused → d = d₀ ∧ d' = d₀')

/-- the identities of the owner's call are not in use. -/
theorem Db.Drawn.untaken (h : d.Drawn I) (hm : Draws I I' m) {call : SubscriptionCall}
    (hs : call.subscriptionId = m.ids 0) (hc : call.channelId = m.ids 1) : ¬ call.taken d := by
  rintro (⟨o, ho, he⟩ | ⟨o, ho, he⟩)
  · exact hm.free 1 (hc ▸ he ▸ h.channels o ho)
  · exact hm.free 0 (hs ▸ he ▸ h.subscriptions o ho)

/-- a call leaves only drawn identities. -/
theorem SubscriptionCall.Leaves.drawn {d₁ : Db} {s : Subscription} {call : SubscriptionCall}
    (hl : call.Leaves d s d₁) (h : d.Drawn I) (hm : Draws I I' m) (hd : d.Catalogued)
    (hs : call.subscriptionId = m.ids 0) (hc : call.channelId = m.ids 1) : d₁.Drawn I' where
  channels c hmem := by
    rcases hl.channels c hmem with hmem | ⟨hid, -⟩
    · exact hm.kept _ (h.channels c hmem)
    · rw [hid, hc]
      exact hm.drawn 1
  subscriptions t hmem := by
    rcases (hl.subscriptions t).mp hmem with rfl | ⟨hmem, -⟩
    · rw [hl.row]
      unfold SubscriptionCall.row
      rcases ho : d.subscribed call.ownerId call.username with _ | o
      · dsimp only
        rw [hs]
        exact hm.drawn 0
      · exact hm.kept _ (h.subscriptions o ((subscribed_iff hd).mp ho).1)
    · exact hm.kept _ (h.subscriptions t hmem)

theorem subscriptionTx_alike {command : SubscriptionSetRequested} (h : Alike owner F I d d')
    (hm : Draws I I' m) (hc : Apart F (.subscription messageId command))
    (ho : command.owner = owner) :
    JudgedAlike owner F I' d d' (settle (subscriptionTx C command messageId sha m) m.fuse d).1
      (settle (subscriptionTx C command messageId sha m) m.fuse d).2
      (settle (subscriptionTx C command messageId sha m) m.fuse d').1
      (settle (subscriptionTx C command messageId sha m) m.fuse d').2 := by
  have hsame : Alike owner F I' d d' := h.mono (fun _ hf => hf) hm.kept
  refine settle_abreast m.fuse (fun e => ⟨rfl, hsame, fun _ => ⟨rfl, rfl⟩⟩) ?_
  unfold subscriptionTx
  refine abreast_bind (abreast_mark (abreast_bind (abreast_claim (h.inbox.holds hc) ?_
    fun hfree _ => ?_)))
  · exact abreast_mark ⟨rfl, hsame, fun _ => ⟨rfl, rfl⟩⟩
  obtain rfl := ho
  refine abreast_bind (abreast_setSubscription
    ⟨m.ids 0, m.ids 1, command.owner, command.channelUsername, command.active, m.now⟩
    (h.subscribed.same rfl rfl rfl rfl)
    (Db.Drawn.untaken (h.drawn.same rfl rfl) hm rfl rfl)
    (Db.Drawn.untaken (h.drawn'.same rfl rfl) hm rfl rfl)
    (abreast_mark ⟨rfl, hsame, fun _ => ⟨rfl, rfl⟩⟩) fun s s' d₁ d₁' hl hl' he he' hnew => ?_)
  have hd₁ := hl.drawn (h.drawn.same rfl rfl) hm
    (h.subscribed.left.same rfl rfl) rfl rfl
  have hd₁' := hl'.drawn (h.drawn'.same rfl rfl) hm
    (h.subscribed.right.same rfl rfl) rfl rfl
  have hout : OutboxAlike command.owner F I d₁.outbox d₁'.outbox := by
    rw [he, he']
    exact h.outbox
  refine abreast_bind (abreast_enqueue (C := C) hout hc rfl rfl hm.kept (hm.free 2) (hm.drawn 2)
    fun ob ob' hob => abreast_bind (abreast_change (abreast_mark ⟨rfl, ?_, fun hr => by cases hr⟩)))
  refine ⟨hnew.same rfl rfl rfl rfl, ?_, ?_, hob, hd₁.same rfl rfl, hd₁'.same rfl rfl⟩
  · rw [he, he']
    exact h.runs
  · rw [he, he']
    exact (h.inbox.snoc _).update fun _ => ⟨rfl, rfl, rfl⟩

theorem runTx_alike {command : RunRequested} (h : Alike owner F I d d') (hm : Draws I I' m)
    (hc : Apart F (.run messageId command)) (ho : command.owner = owner) :
    JudgedAlike owner F I' d d' (settle (runTx C command messageId sha m) m.fuse d).1
      (settle (runTx C command messageId sha m) m.fuse d).2
      (settle (runTx C command messageId sha m) m.fuse d').1
      (settle (runTx C command messageId sha m) m.fuse d').2 := by
  have hsame : Alike owner F I' d d' := h.mono (fun _ hf => hf) hm.kept
  refine settle_abreast m.fuse (fun e => ⟨rfl, hsame, fun _ => ⟨rfl, rfl⟩⟩) ?_
  unfold runTx
  refine abreast_bind (abreast_mark (abreast_bind (abreast_claim (h.inbox.holds hc) ?_
    fun hfree _ => ?_)))
  · exact abreast_mark ⟨rfl, hsame, fun _ => ⟨rfl, rfl⟩⟩
  refine abreast_bind (abreast_createDigestRun h.runs ho (fun f hf hrun => hc.run f _ hf hrun rfl)
    fun selected rs rs' hrs => ?_)
  split_ifs
  · exact abreast_mark ⟨rfl, hsame, fun _ => ⟨rfl, rfl⟩⟩
  · refine abreast_bind (abreast_change (abreast_bind (abreast_reportQueued h.outbox hc rfl ho hm
      fun ob ob' hob => abreast_bind (abreast_change (abreast_mark
        ⟨rfl, ?_, fun hr => by cases hr⟩)))))
    exact ⟨hsame.subscribed.same rfl rfl rfl rfl, hrs.update fun _ => ⟨rfl, rfl⟩,
      (h.inbox.snoc _).update fun _ => ⟨rfl, rfl, rfl⟩, hob, hsame.drawn.same rfl rfl,
      hsame.drawn'.same rfl rfl⟩

/-! ## The owner's command, as it is handled -/

section
variable {language : OutputLanguage} {x : Delivered C} {n : Nat}

theorem reject_alike (h : Alike owner F I d d') (hm : Draws I I' (x.moments n)) (hc : Apart F c)
    (ho : c.ownerId = owner) (reason : RejectionReason) :
    EndsAlike owner F I' ((reject C (c.rejection sha reason)).conduct x.answer n d).1.1
      ((reject C (c.rejection sha reason)).conduct x.answer n d).1.2
      ((reject C (c.rejection sha reason)).conduct x.answer n d').1.1
      ((reject C (c.rejection sha reason)).conduct x.answer n d').1.2 :=
  rejectTx_alike h hm hc ho reason

/-- a refused command is rejected in a transaction of its own. -/
theorem judged_alike {p : Action IntakeError Verdict}
    {k : Verdict → Action IntakeError IntakeOutcome} (h : Alike owner F I d d')
    (hp : JudgedAlike owner F I' d d' (p.conduct x.answer n d).1.1 (p.conduct x.answer n d).1.2
      (p.conduct x.answer n d').1.1 (p.conduct x.answer n d').1.2)
    (hn : (p.conduct x.answer n d).2 = (p.conduct x.answer n d').2)
    (hm : ∀ n, Draws I I' (x.moments n)) (hc : Apart F c) (ho : c.ownerId = owner)
    (reason : RejectionReason) (hk : ∀ o, k (.outcome o) = Pure.pure o)
    (hr : k .refused = reject C (c.rejection sha reason)) :
    EndsAlike owner F I' ((p >>= k).conduct x.answer n d).1.1 ((p >>= k).conduct x.answer n d).1.2
      ((p >>= k).conduct x.answer n d').1.1 ((p >>= k).conduct x.answer n d').1.2 := by
  rw [conduct_bind, conduct_bind]
  generalize p.conduct x.answer n d = o at hp hn ⊢
  generalize p.conduct x.answer n d' = o' at hp hn ⊢
  obtain ⟨⟨r, d₁⟩, n₁⟩ := o
  obtain ⟨⟨r', d₁'⟩, n₁'⟩ := o'
  obtain ⟨rfl, hends, hrefused⟩ := hp
  cases hn
  rcases r with e | o | _
  · exact ⟨rfl, hends⟩
  · dsimp only
    rw [hk]
    exact ⟨rfl, hends⟩
  · obtain ⟨rfl, rfl⟩ := hrefused rfl
    dsimp only
    rw [hr]
    exact reject_alike h (hm n₁) hc ho reason

theorem acceptSubscription_alike {payload : C.Bytes} {command : SubscriptionSetRequested}
    (h : Alike owner F I d d') (hm : ∀ n, Draws I I' (x.moments n))
    (hp : C.subscription.fromSlice payload = some command)
    (hc : Apart F (.subscription messageId command)) (ho : command.owner = owner) :
    EndsAlike owner F I' ((acceptSubscription C messageId payload).conduct x.answer n d).1.1
      ((acceptSubscription C messageId payload).conduct x.answer n d).1.2
      ((acceptSubscription C messageId payload).conduct x.answer n d').1.1
      ((acceptSubscription C messageId payload).conduct x.answer n d').1.2 := by
  unfold acceptSubscription
  rw [hp]
  dsimp only
  split_ifs
  · exact reject_alike h (hm n) hc ho .commandInvalid
  · exact judged_alike h (subscriptionTx_alike h (hm n) hc ho) rfl hm hc ho
      .subscriptionLimit (fun _ => rfl) rfl

theorem acceptRun_alike {payload : C.Bytes} {command : RunRequested}
    (h : Alike owner F I d d') (hm : ∀ n, Draws I I' (x.moments n))
    (hp : C.run.fromSlice payload = some command)
    (hc : Apart F (.run messageId command)) (ho : command.owner = owner) :
    EndsAlike owner F I' ((acceptRun C messageId payload).conduct x.answer n d).1.1
      ((acceptRun C messageId payload).conduct x.answer n d).1.2
      ((acceptRun C messageId payload).conduct x.answer n d').1.1
      ((acceptRun C messageId payload).conduct x.answer n d').1.2 := by
  unfold acceptRun
  rw [hp]
  dsimp only
  split_ifs
  · exact reject_alike h (hm n) hc ho .commandInvalid
  · exact judged_alike h (runTx_alike h (hm n) hc ho) rfl hm hc ho .commandInvalid
      (fun _ => rfl) rfl

/-- the disposition of an intake call says how it ended. -/
theorem intakeDisposition_alike {p : Action IntakeError IntakeOutcome}
    (h : EndsAlike owner F I (p.conduct x.answer n d).1.1 (p.conduct x.answer n d).1.2
      (p.conduct x.answer n d').1.1 (p.conduct x.answer n d').1.2) :
    EndsAlike owner F I ((intakeDisposition p).conduct x.answer n d).1.1
      ((intakeDisposition p).conduct x.answer n d).1.2
      ((intakeDisposition p).conduct x.answer n d').1.1
      ((intakeDisposition p).conduct x.answer n d').1.2 := by
  unfold intakeDisposition
  rw [conduct_next, conduct_next]
  generalize p.conduct x.answer n d = o at h ⊢
  generalize p.conduct x.answer n d' = o' at h ⊢
  obtain ⟨⟨r, d₁⟩, n₁⟩ := o
  obtain ⟨⟨r', d₁'⟩, n₁'⟩ := o'
  obtain ⟨rfl, h⟩ := h
  rcases r with (_ | _) | _
  · exact ⟨rfl, h⟩
  · exact ⟨rfl, h⟩
  · exact ⟨rfl, h⟩

/-- **A command of the owner** is handled alike. -/
theorem Alike.own {c : Command} (h : Alike owner F I d d') (hm : ∀ n, Draws I I' (x.moments n))
    (hx : x.command language = some c) (hc : Apart F c) (ho : c.ownerId = owner) :
    EndsAlike owner F I' (x.handled language d).1 (x.handled language d).2
      (x.handled language d').1 (x.handled language d').2 := by
  have hserves := handle_serves (C := C) language x.kind.subject.transport x.bytes
  unfold Delivered.command at hx
  rcases hr : received C language x.kind.subject.transport x.bytes with _ | (c' | fact | fact) <;>
    rw [hr] at hx hserves <;> cases hx
  unfold Delivered.handled
  generalize handle C language x.kind.subject.transport x.bytes = p at hserves
  cases hserves with
  | subscription hp => exact intakeDisposition_alike (acceptSubscription_alike h hm hp hc ho)
  | run hp => exact intakeDisposition_alike (acceptRun_alike h hm hp hc ho)
  | unreadable => exact intakeDisposition_alike (reject_alike h (hm 0) hc ho .commandInvalid)
  | occurrence =>
    obtain ⟨c, hcommand, hsubject⟩ := Delivered.received_command hr
    cases hcommand
    cases hk : x.kind <;> rw [hk] at hsubject <;> cases hsubject

end

/-! ## A command of another owner -/

/-- what a command does to the database in one transaction, at the moment `m`. -/
inductive Command.Does (m : Moment) (sha : Digest) (d d' : Db) : Command → Prop where
  | applied {messageId command} : SubscriptionApplied m d d' command messageId sha →
      Does m sha d d' (.subscription messageId command)
  | rejected {c reason} : CommandRejected m d d' (Command.rejection c sha reason) →
      Does m sha d d' c
  | created {messageId command} : RunCreated m d d' command messageId sha →
      Does m sha d d' (.run messageId command)
  | repeated {messageId command} : RunRepeated m d d' command messageId sha →
      Does m sha d d' (.run messageId command)

/-- the command does nothing, or what it does at a moment of the delivery. -/
def Delivered.Did (x : Delivered C) (c : Command) (d d' : Db) : Prop :=
  d' = d ∨ ∃ n sha, c.Does (x.moments n) sha d d'

section
variable {language : OutputLanguage} {x : Delivered C} {n : Nat}

theorem reject_did (reason : RejectionReason) :
    x.Did c d ((reject C (c.rejection sha reason)).conduct x.answer n d).1.2 := by
  refine settle_of_closes (x.moments n).fuse (fun _ => trivial)
    (Q := fun _ d' => x.Did c d d') (rejectTx_closes ?_ ?_ fun d' h => ?_)
  · exact fun _ _ => .inl rfl
  · exact fun _ => .inl rfl
  · exact .inr ⟨n, sha, .rejected h⟩

theorem judged_did {p : Action IntakeError Verdict}
    {k : Verdict → Action IntakeError IntakeOutcome}
    (hp : x.Did c d (p.conduct x.answer n d).1.2 ∧
      ((p.conduct x.answer n d).1.1 = .ok .refused → (p.conduct x.answer n d).1.2 = d))
    (reason : RejectionReason) (hk : ∀ o, k (.outcome o) = Pure.pure o)
    (hr : k .refused = reject C (c.rejection sha reason)) :
    x.Did c d ((p >>= k).conduct x.answer n d).1.2 := by
  rw [conduct_bind]
  generalize p.conduct x.answer n d = o at hp ⊢
  obtain ⟨⟨r, d₁⟩, n₁⟩ := o
  obtain ⟨hdid, hrefused⟩ := hp
  rcases r with e | o | _
  · exact hdid
  · dsimp only
    rw [hk]
    exact hdid
  · obtain rfl : d₁ = d := hrefused rfl
    dsimp only
    rw [hr]
    exact reject_did reason

theorem acceptSubscription_did {payload : C.Bytes} {command : SubscriptionSetRequested}
    (hp : C.subscription.fromSlice payload = some command) :
    x.Did (.subscription messageId command) d
      ((acceptSubscription C messageId payload).conduct x.answer n d).1.2 := by
  unfold acceptSubscription
  rw [hp]
  dsimp only
  split_ifs
  · exact reject_did .commandInvalid
  · refine judged_did ?_ .subscriptionLimit (fun _ => rfl) rfl
    refine settle_of_closes (x.moments n).fuse (fun _ => trivial)
      (Q := fun r d' => x.Did (.subscription messageId command) d d' ∧ (r = .ok .refused → d' = d))
      (subscriptionTx_closes ?_ ?_ ?_ fun d' h => ?_)
    · exact fun _ _ => ⟨.inl rfl, fun _ => rfl⟩
    · exact fun _ => ⟨.inl rfl, fun _ => rfl⟩
    · exact fun _ => ⟨.inl rfl, fun _ => rfl⟩
    · exact ⟨.inr ⟨n, _, .applied h⟩, fun hr => by cases hr⟩

theorem acceptRun_did {payload : C.Bytes} {command : RunRequested}
    (hp : C.run.fromSlice payload = some command) :
    x.Did (.run messageId command) d
      ((acceptRun C messageId payload).conduct x.answer n d).1.2 := by
  unfold acceptRun
  rw [hp]
  dsimp only
  split_ifs
  · exact reject_did .commandInvalid
  · refine judged_did ?_ .commandInvalid (fun _ => rfl) rfl
    refine settle_of_closes (x.moments n).fuse (fun _ => trivial)
      (Q := fun r d' => x.Did (.run messageId command) d d' ∧ (r = .ok .refused → d' = d))
      (runTx_closes ?_ ?_ ?_ (fun d' h => ?_) fun d' h => ?_)
    · exact fun _ _ => ⟨.inl rfl, fun _ => rfl⟩
    · exact fun _ => ⟨.inl rfl, fun _ => rfl⟩
    · exact fun _ => ⟨.inl rfl, fun _ => rfl⟩
    · exact ⟨.inr ⟨n, _, .created h⟩, fun hr => by cases hr⟩
    · exact ⟨.inr ⟨n, _, .repeated h⟩, fun hr => by cases hr⟩

theorem intakeDisposition_did {p : Action IntakeError IntakeOutcome}
    (h : x.Did c d (p.conduct x.answer n d).1.2) :
    x.Did c d ((intakeDisposition p).conduct x.answer n d).1.2 := by
  unfold intakeDisposition
  rw [conduct_next]
  generalize p.conduct x.answer n d = o at h ⊢
  obtain ⟨⟨r, d₁⟩, n₁⟩ := o
  rcases r with (_ | _) | _
  · exact h
  · exact h
  · exact h

/-- **What a command does.** -/
theorem handled_did (hx : x.command language = some c) : x.Did c d (x.handled language d).2 := by
  have hserves := handle_serves (C := C) language x.kind.subject.transport x.bytes
  unfold Delivered.command at hx
  rcases hr : received C language x.kind.subject.transport x.bytes with _ | (c' | fact | fact) <;>
    rw [hr] at hx hserves <;> cases hx
  unfold Delivered.handled
  generalize handle C language x.kind.subject.transport x.bytes = p at hserves
  cases hserves with
  | subscription hp => exact intakeDisposition_did (acceptSubscription_did hp)
  | run hp => exact intakeDisposition_did (acceptRun_did hp)
  | @unreadable messageId kind sha operationId ownerId =>
    exact intakeDisposition_did (reject_did (c := .unreadable messageId kind operationId ownerId)
      .commandInvalid)
  | occurrence =>
    obtain ⟨c, hcommand, hsubject⟩ := Delivered.received_command hr
    cases hcommand
    cases hk : x.kind <;> rw [hk] at hsubject <;> cases hsubject

/-- a delivery that is refused for good leaves the database as it is. -/
theorem handled_none (hx : x.command language = none) :
    (x.handled language d).1 = .ok .term ∧ (x.handled language d).2 = d := by
  have hserves := handle_serves (C := C) language x.kind.subject.transport x.bytes
  unfold Delivered.command at hx
  have hnone : received C language x.kind.subject.transport x.bytes = none := by
    refine Option.eq_none_iff_forall_ne_some.mpr fun message hr => ?_
    obtain ⟨c, rfl, -⟩ := Delivered.received_command hr
    rw [hr] at hx
    cases hx
  rw [hnone] at hserves
  unfold Delivered.handled
  rw [show handle C language x.kind.subject.transport x.bytes = Pure.pure .term from hserves]
  exact ⟨rfl, rfl⟩

end

/-- a run of another owner is inserted. -/
theorem RunsAlike.foreign_snoc {rows rows' : List Run} {run : Run}
    (h : RunsAlike owner F rows rows')
    (ho : run.ownerId ≠ owner) (hc : F c) (hid : c.digestRun = some run.runId) :
    RunsAlike owner F (rows ++ [run]) rows' := by
  refine ⟨?_, fun r hr => ?_, h.only⟩
  · rw [List.filter_append, List.filter_singleton, decide_eq_false ho, ← h.own]
    exact List.append_nil _
  · rcases List.mem_append.mp hr with hr | hr
    · exact h.foreign r hr
    · exact .inr ⟨c, hc, List.mem_singleton.mp hr ▸ hid⟩

/-- runs of another owner are updated. -/
theorem RunsAlike.foreign_update {rows rows' : List Run} (h : RunsAlike owner F rows rows')
    {p : Run → Bool} {u : Run → Run} (hp : ∀ r, p r = true → r.ownerId ≠ owner)
    (hu : ∀ r, (u r).runId = r.runId ∧ (u r).ownerId = r.ownerId) :
    RunsAlike owner F (updateWhere p u rows) rows' := by
  refine ⟨?_, fun r hr => ?_, h.only⟩
  · rw [filter_updateWhere fun r _ => by rw [(hu r).2], updateWhere_none fun r hr => ?_, h.own]
    by_contra hpr
    exact hp r (by simpa using hpr) (of_decide_eq_true (List.mem_filter.mp hr).2)
  · obtain ⟨o, ho, ⟨-, rfl⟩ | ⟨-, rfl⟩⟩ := mem_updateWhere.mp hr
    · rw [(hu o).1, (hu o).2]
      exact h.foreign o ho
    · exact h.foreign r ho

/-- a row of a command of another owner. -/
theorem InboxAlike.foreign_snoc {rows rows' : List InboxMessage} (h : InboxAlike F rows rows')
    {row : InboxMessage} (hc : F c) (hrow : row.messageId = c.messageId ∧ row.subject = c.subject ∧
      row.semanticKey = .text c.semanticKey) : InboxAlike F (rows ++ [row]) rows' := by
  refine ⟨fun o ho => List.mem_append_left _ (h.kept o ho), fun o ho => ?_⟩
  rcases List.mem_append.mp ho with ho | ho
  · exact h.foreign o ho
  · exact .inr ⟨c, hc, List.mem_singleton.mp ho ▸ hrow⟩

/-- a report to another owner. -/
theorem OutboxAlike.foreign_offered {rows rows' rows₁ : List OutboxMessage} {row : OutboxMessage}
    (h : OutboxAlike owner F I rows rows') (ho : row.ownerId ≠ owner) (hc : F c)
    {status : OperationStatus} (hk : row.key = .report c.operationId status) (hid : I row.outboxId)
    (hrow : Offered rows row rows₁) : OutboxAlike owner F I rows₁ rows' := by
  rcases hrow with ⟨rfl, -⟩ | ⟨rfl, -, -⟩
  · exact h
  refine ⟨?_, fun o hmem => ?_, h.only, fun o hmem => ?_, h.drawn'⟩
  · rw [List.filter_append, List.filter_singleton, decide_eq_false ho, ← h.own]
    exact List.append_nil _
  · rcases List.mem_append.mp hmem with hmem | hmem
    · exact h.foreign o hmem
    · exact .inr ⟨c, hc, status, List.mem_singleton.mp hmem ▸ hk⟩
  · rcases List.mem_append.mp hmem with hmem | hmem
    · exact h.drawn o hmem
    · exact List.mem_singleton.mp hmem ▸ hid

theorem OutboxAlike.foreign_queued {rows rows' rows₁ : List OutboxMessage} {command : RunRequested}
    (h : OutboxAlike owner F I rows rows') (hne : command.owner ≠ owner)
    (hc : F (.run messageId command)) (hid : I (m.ids 0))
    (hrow : OfferedQueued m command messageId rows rows₁) : OutboxAlike owner F I rows₁ rows' := by
  unfold OfferedQueued at hrow
  split_ifs at hrow
  · exact h.foreign_offered hne hc rfl hid hrow
  · rw [hrow]
    exact h

/-- **A command of another owner** leaves the databases alike. -/
theorem Alike.foreign {x : Delivered C} {d₁ : Db} (h : Alike owner F I d d')
    (hF : ∀ f, F f → F' f) (hc : F' c) (hm : ∀ n, Draws I I' (x.moments n))
    (hne : c.ownerId ≠ owner) (hd : x.Did c d d₁) : Alike owner F' I' d₁ d' := by
  have hI : ∀ id, I id → I' id := (hm 0).kept
  have hsame : Alike owner F' I' d d' := h.mono hF hI
  rcases hd with rfl | ⟨n, sha, hdoes⟩
  · exact hsame
  cases hdoes with
  | @applied messageId command hdone =>
    obtain ⟨s, d₂, ob, hset, hob, rfl⟩ := hdone.effect
    let claimed : Db := { d with
      inbox := d.inbox ++
        [.processing messageId .subscription (.text command.idempotencyKey) sha] }
    let call : SubscriptionCall := ⟨(x.moments n).ids 0, (x.moments n).ids 1, command.owner,
      command.channelUsername, command.active, (x.moments n).now⟩
    have hclaimed : SubscribedAlike owner claimed d' := h.subscribed.same rfl rfl rfl rfl
    have hl : call.Leaves claimed s d₂ := setSubscription_leaves hclaimed.left hset
    have hforeign : call.ownerId ≠ owner := hne
    have hnew := hclaimed.foreign hl hforeign
    have hdrawn := hl.drawn (h.drawn.same rfl rfl) (hm n) hclaimed.left rfl rfl
    exact ⟨hnew.same rfl rfl rfl rfl, hsame.runs, hsame.inbox.foreign_snoc hc ⟨rfl, rfl, rfl⟩,
      hsame.outbox.foreign_offered hne hc rfl ((hm n).drawn 2) hob, hdrawn.same rfl rfl,
      hsame.drawn'⟩
  | rejected hdone =>
    obtain ⟨ob, hob, rfl⟩ := hdone.effect
    exact ⟨hsame.subscribed.same rfl rfl rfl rfl, hsame.runs,
      hsame.inbox.foreign_snoc hc ⟨rfl, rfl, rfl⟩,
      hsame.outbox.foreign_offered hne hc rfl ((hm n).drawn 0) hob, hsame.drawn.same rfl rfl,
      hsame.drawn'⟩
  | created hdone =>
    obtain ⟨ob, hob, rfl⟩ := hdone.effect
    exact ⟨hsame.subscribed.same rfl rfl rfl rfl, hsame.runs.foreign_snoc hne hc rfl,
      hsame.inbox.foreign_snoc hc ⟨rfl, rfl, rfl⟩,
      hsame.outbox.foreign_queued hne hc ((hm n).drawn 0) hob, hsame.drawn.same rfl rfl,
      hsame.drawn'⟩
  | @repeated messageId command hdone =>
    obtain ⟨ob, hob, rfl⟩ := hdone.effect
    refine ⟨hsame.subscribed.same rfl rfl rfl rfl, hsame.runs.foreign_update (fun r hr => ?_)
      fun _ => ⟨rfl, rfl⟩, hsame.inbox.foreign_snoc hc ⟨rfl, rfl, rfl⟩,
      hsame.outbox.foreign_queued hne hc ((hm n).drawn 0) hob, hsame.drawn.same rfl rfl,
      hsame.drawn'⟩
    rw [Bool.and_eq_true, decide_eq_true_eq, decide_eq_true_eq] at hr
    rw [hr.2]
    exact hne

end

/-! ## Histories of many owners -/

section
variable {C : Contracts} {language : OutputLanguage} {owner : Uuid} {x : Delivered C}
  {history : List (Delivered C)}

theorem AllDistinct.tail (h : AllDistinct language (x :: history)) : AllDistinct language history :=
  ⟨(List.pairwise_cons.mp h.messages).2, (List.pairwise_cons.mp h.runs).2,
    (List.pairwise_cons.mp h.drawn).2⟩

theorem Alike.ownView {F : Command → Prop} {I : Uuid → Prop} {d d' : Db}
    (h : Alike owner F I d d') :
    d.ownView owner = d'.ownView owner := by
  have hs := h.subscribed.view
  have hr := h.runs.own
  have ho := h.outbox.own
  unfold Db.ownView at hs ⊢
  rw [hr, ho, OwnView.mk.injEq]
  exact ⟨hs, rfl, rfl⟩

/-- from alike databases on: the commands of `F` are apart from the owner's that follow, and the
identities in `I` are not drawn again. -/
theorem owners_apart_from {F : Command → Prop} {I : Uuid → Prop} {d d' : Db}
    (hids : AllDistinct language history) (hfree : Unclashed language owner history)
    (hF : ∀ x ∈ history, ∀ c, x.command language = some c → c.ownerId = owner → Apart F c)
    (hI : ∀ x ∈ history, ∀ id, I id → ¬ x.draws id) (h : Alike owner F I d d') :
    (dispositions language history d).filter (fun y => y.1.isOf language owner) =
        dispositions language (withoutOthers language owner history) d' ∧
      (d.afterAll language history).ownView owner =
        (d'.afterAll language (withoutOthers language owner history)).ownView owner := by
  induction history generalizing F I d d' with
  | nil => exact ⟨rfl, h.ownView⟩
  | cons x history ih =>
    obtain ⟨hfree, hrest⟩ := List.pairwise_cons.mp hfree
    have hm : ∀ n, Draws I (fun id => I id ∨ x.draws id) (x.moments n) := fun n =>
      ⟨fun _ => .inl, fun i hid => hI x List.mem_cons_self _ hid ⟨n, i, rfl⟩,
        fun i => .inr ⟨n, i, rfl⟩⟩
    have hI' : ∀ y ∈ history, ∀ id, (I id ∨ x.draws id) → ¬ y.draws id := by
      rintro y hy id (hid | hid)
      · exact hI y (List.mem_cons_of_mem _ hy) id hid
      · exact (List.pairwise_cons.mp hids.drawn).1 y hy id hid
    have hF' : ∀ y ∈ history, ∀ c, y.command language = some c → c.ownerId = owner → Apart F c :=
      fun y hy => hF y (List.mem_cons_of_mem _ hy)
    -- the delivery stays in the history, and is handled alike.
    have kept : x.isOf language owner = true →
        EndsAlike owner F (fun id => I id ∨ x.draws id) (x.handled language d).1
          (x.handled language d).2 (x.handled language d').1 (x.handled language d').2 →
        (dispositions language (x :: history) d).filter (fun y => y.1.isOf language owner) =
            dispositions language (withoutOthers language owner (x :: history)) d' ∧
          (d.afterAll language (x :: history)).ownView owner =
            (d'.afterAll language (withoutOthers language owner (x :: history))).ownView
              owner := by
      intro hx hends
      obtain ⟨hfilter, hview⟩ := ih hids.tail hrest hF' hI' hends.2
      have hkept : withoutOthers language owner (x :: history) =
          x :: withoutOthers language owner history := List.filter_cons_of_pos hx
      rw [hkept]
      refine ⟨?_, hview⟩
      calc (dispositions language (x :: history) d).filter (fun y => y.1.isOf language owner)
          = (x, (x.handled language d).1) :: (dispositions language history
              (x.handled language d).2).filter fun y => y.1.isOf language owner :=
            List.filter_cons_of_pos hx
        _ = dispositions language (x :: withoutOthers language owner history) d' := by
            rw [hfilter, hends.1]
            rfl
    rcases hc : x.command language with _ | c
    · refine kept (by rw [Delivered.isOf, hc]; rfl) ?_
      obtain ⟨h₁, h₂⟩ := handled_none (d := d) hc
      obtain ⟨h₁', h₂'⟩ := handled_none (d := d') hc
      rw [h₁, h₂, h₁', h₂']
      exact ⟨rfl, h.mono (fun _ => id) fun _ => .inl⟩
    · by_cases ho : c.ownerId = owner
      · refine kept (by rw [Delivered.isOf, hc]; exact decide_eq_true ho) ?_
        exact h.own hm hc (hF x List.mem_cons_self c hc ho) ho
      · -- the delivery is left out.
        have hx : ¬ x.isOf language owner = true := by
          rw [Delivered.isOf, hc]
          simpa using ho
        have hnext : Alike owner (fun f => F f ∨ f = c) (fun id => I id ∨ x.draws id)
            (x.handled language d).2 d' :=
          h.foreign (fun _ => .inl) (.inr rfl) hm ho (handled_did hc)
        have hout : withoutOthers language owner (x :: history) =
            withoutOthers language owner history := List.filter_cons_of_neg hx
        have hfilter : (dispositions language (x :: history) d).filter
            (fun y => y.1.isOf language owner) = (dispositions language history
              (x.handled language d).2).filter fun y => y.1.isOf language owner :=
          List.filter_cons_of_neg hx
        rw [hout, hfilter]
        refine ih hids.tail hrest (fun y hy c' hc' ho' => ?_) hI' hnext
        obtain ⟨hmessage, hclash, hrun⟩ := hF' y hy c' hc' ho'
        refine ⟨?_, ?_, ?_⟩
        · rintro f (hf | rfl)
          · exact hmessage f hf
          · exact (List.pairwise_cons.mp hids.messages).1 y hy f c' hc hc'
        · rintro f (hf | rfl)
          · exact hclash f hf
          · exact hfree y hy f c' hc hc' ho ho'
        · rintro f id (hf | rfl) hid
          · exact hrun f id hf hid
          · exact (List.pairwise_cons.mp hids.runs).1 y hy f c' id hc hc' hid

/-- **An owner's commands are handled as if they were alone.**  In every history of subscription and
run commands with distinct identities, in which no command of another owner shares its semantic key
or its operation with a later command of the owner: leaving out the commands of all others changes
neither a disposition of the owner's commands nor the owner's subscriptions, runs and reports. -/
theorem owners_apart (hids : AllDistinct language history)
    (hfree : Unclashed language owner history) :
    (dispositions language history Db.empty).filter (fun y => y.1.isOf language owner) =
        dispositions language (withoutOthers language owner history) Db.empty ∧
      (Db.empty.afterAll language history).ownView owner =
        (Db.empty.afterAll language (withoutOthers language owner history)).ownView owner :=
  owners_apart_from hids hfree (fun _ _ _ _ _ => ⟨fun _ hf => hf.elim, fun _ hf => hf.elim,
    fun _ _ hf => hf.elim⟩) (fun _ _ _ hid => hid.elim) .empty

end

namespace Sample

/-- a delivery of a subscription command; the identities that it draws leave the rest `j`. -/
def asking (j : Nat) (messageId : Uuid) (c : SubscriptionSetRequested) : Delivered contracts where
  kind := .subscription
  bytes := .command ⟨messageId, Subject.subscription.contractType, platformProducer, "", none,
    some c.owner, .subscription c⟩
  moments _ := ⟨1000, fun i => 2 * i + j, none⟩

/-- a command of another owner. -/
def theirs (key : String) : SubscriptionSetRequested := ⟨31, 8, key, "rustlang", true⟩

/-- the other owner subscribes first, under the key. -/
def sharing (key : String) : List (Delivered contracts) :=
  [asking 0 301 (theirs key), asking 1 101 subscribe]

theorem sharing_distinct (key : String) : AllDistinct .ru (sharing key) := by
  have hfirst : (asking 0 301 (theirs key)).command .ru =
      some (.subscription 301 (theirs key)) := rfl
  have hsecond : (asking 1 101 subscribe).command .ru = some (.subscription 101 subscribe) := rfl
  refine ⟨List.pairwise_pair.mpr ?_, List.pairwise_pair.mpr ?_, List.pairwise_pair.mpr ?_⟩
  · rw [hfirst, hsecond]
    rintro _ _ ⟨⟩ ⟨⟩
    show (301 : Uuid) ≠ 101
    decide
  · rw [hfirst]
    rintro _ _ _ ⟨⟩ _ hrun
    cases hrun
  · rintro id ⟨n, i, hi⟩ ⟨n', i', hi'⟩
    have hsame : 2 * i + 0 = 2 * i' + 1 := hi.trans hi'.symm
    omega

end Sample

/-- **A key is shared by all owners**: the command of one owner is swallowed by that of another. -/
theorem shared_key_swallowed : ¬ ∀ (C : Contracts) (language : OutputLanguage) (owner : Uuid)
    (history : List (Delivered C)), AllDistinct language history →
      (dispositions language history Db.empty).filter (fun y => y.1.isOf language owner) =
          dispositions language (withoutOthers language owner history) Db.empty ∧
        (Db.empty.afterAll language history).ownView owner =
          (Db.empty.afterAll language (withoutOthers language owner history)).ownView owner := by
  intro h
  obtain ⟨-, hview⟩ := h _ .ru 7 _ (Sample.sharing_distinct "subscribe")
  have hnone : ((Db.empty.afterAll .ru (Sample.sharing "subscribe")).ownView 7).subscriptions.length =
      0 := by decide +kernel
  have hone : ((Db.empty.afterAll .ru
      (withoutOthers .ru 7 (Sample.sharing "subscribe"))).ownView 7).subscriptions.length = 1 := by
    decide +kernel
  rw [hview, hone] at hnone
  cases hnone

/-- under another key, both owners subscribe as if they were alone. -/
theorem other_key_apart :
    (Db.empty.afterAll .ru (Sample.sharing "theirs")).ownView 7 =
      (Db.empty.afterAll .ru (withoutOthers .ru 7 (Sample.sharing "theirs"))).ownView 7 := by
  refine (owners_apart (Sample.sharing_distinct "theirs") (List.pairwise_pair.mpr ?_)).2
  rintro _ _ ⟨⟩ ⟨⟩ _ _
  unfold Command.Clashes
  decide

end ChannelDigests
