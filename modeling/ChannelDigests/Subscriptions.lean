import ChannelDigests.Schema

/-!
# Subscriptions

`set_subscription` of the schema: the channel row is shared by all owners, the subscription row is
one for each owner and channel, and at most `activeLimit` subscriptions of an owner are enabled.

* `lower`                  the canonical form of a username;
* `Db.withChannel`         the channel of a username, inserted when it is new;
* `Db.setSubscription`     the whole function: the database refuses it, raises the limit, or
                           returns the row and the state it leaves.
-/

namespace ChannelDigests
open Lib

/-- `lower(…)` on usernames. -/
def lower (s : String) : String := String.ofList (s.toList.map Char.toLower)

/-- most enabled subscriptions of one owner. -/
def activeLimit : Nat := 20

/-- how many subscriptions of the owner are enabled. -/
def Db.activeCount (d : Db) (ownerId : Uuid) : Nat :=
  d.subscriptions.countP fun s => s.ownerId = ownerId && s.enabled

def Db.channelOf (d : Db) (username : String) : Option Channel :=
  d.channels.find? fun c => c.username = username

def Db.subscriptionOf (d : Db) (ownerId channelId : Uuid) : Option Subscription :=
  d.subscriptions.find? fun s => s.ownerId = ownerId && s.channelId = channelId

/-- `insert into channels … on conflict (username) do nothing`, then the channel of the username;
`none` when the new identity is taken. -/
def Db.withChannel (d : Db) (channelId : Uuid) (username : String) : Option (Uuid × Db) :=
  match d.channelOf username with
  | some c => some (c.channelId, d)
  | none =>
    if d.channels.any (fun c => c.channelId = channelId) then none
    else some (channelId,
      { d with channels := d.channels ++ [⟨channelId, username, none⟩] })

/-- what `set_subscription` answers. -/
inductive SetSubscription where
  | violation
  | limit
  | row (s : Subscription) (d : Db)

/-- `channel_digests.set_subscription`. -/
def Db.setSubscription (d : Db) (subscriptionId channelId ownerId : Uuid) (username : String)
    (enabled : Bool) (requestedAt : Instant) : SetSubscription :=
  match d.withChannel channelId (lower username) with
  | none => .violation
  | some (selected, d) =>
    match d.subscriptionOf ownerId selected with
    | some existing =>
      if enabled && !existing.enabled && activeLimit ≤ d.activeCount ownerId then .limit
      else .row { existing with enabled }
        { d with
          subscriptions := updateWhere (fun s => s.subscriptionId = existing.subscriptionId)
            (fun s => { s with enabled }) d.subscriptions }
    | none =>
      if enabled && activeLimit ≤ d.activeCount ownerId then .limit
      else if d.subscriptions.any (fun s => s.subscriptionId = subscriptionId) then .violation
      else
        let row : Subscription :=
          { subscriptionId, ownerId, channelId := selected, firstActivatedAt := requestedAt, enabled }
        .row row { d with subscriptions := d.subscriptions ++ [row] }

end ChannelDigests
