import ChannelDigests.SubscriptionCalls
import ChannelDigests.FanOut

/-!
# First activation

The row of a subscription keeps the request time of the call that made it.

* `Succeeding`          histories in which no call is refused;
* `firstEnabling`, `firstMention`   the request time of the first enabling call, and of the first;
* `firstActivatedAt_eq` the stored instant is that of the first call, enabling or not;
* `ActivatedFirst`      the stored instant is the first activation, and no window starts before;
* `activated_first_iff` **it is exactly when the first call enables, or has the time of the one
                        that does**.
-/

namespace ChannelDigests
open Lib

/-- every call of the history leaves its row. -/
def Succeeding (d : Db) : List SubscriptionCall → Prop
  | [] => True
  | call :: calls => (∃ s, call.answer d = .ok (some s)) ∧ Succeeding (d.afterCall call) calls

/-- the request time of the first call of an owner about a username. -/
def firstMention (calls : List SubscriptionCall) (ownerId : Uuid) (username : String) :
    Option Instant :=
  (calls.find? fun call => call.about ownerId username).map (·.requestedAt)

/-- the request time of the first enabling one. -/
def firstEnabling (calls : List SubscriptionCall) (ownerId : Uuid) (username : String) :
    Option Instant :=
  (calls.find? fun call => call.about ownerId username && call.enabled).map (·.requestedAt)

/-- in every state of the history, a subscription that was enabled has the request time of its
first enabling call, and a scheduled window of the owner does not start before the first enabling
call of one of the enabled channels. -/
structure ActivatedFirst (calls : List SubscriptionCall) (ownerId : Uuid) : Prop where
  instant : ∀ past rest, calls = past ++ rest → ∀ username t,
    firstEnabling past ownerId username = some t →
      ((Db.empty.afterCalls past).subscribed ownerId username).map (·.firstActivatedAt) = some t
  window : ∀ past rest, calls = past ++ rest → ∀ previous due,
    ownerId ∈ dueOwners (Db.empty.afterCalls past).subscriptions due →
      ∃ username s t, (Db.empty.afterCalls past).subscribed ownerId username = some s ∧
        s.enabled = true ∧ firstEnabling past ownerId username = some t ∧
        t ≤ scheduledStart (activation (Db.empty.afterCalls past).subscriptions due ownerId)
          previous due

/-- the first call about a channel that is ever enabled has the time of the first enabling one. -/
def EnabledFirst (calls : List SubscriptionCall) (ownerId : Uuid) : Prop :=
  ∀ username t, firstEnabling calls ownerId username = some t →
    firstMention calls ownerId username = some t

/-! ## The stored instant -/

section
variable {d : Db} {past rest calls : List SubscriptionCall} {call : SubscriptionCall}
  {ownerId : Uuid} {username : String}

theorem Succeeding.append : Succeeding d (past ++ rest) ↔
    Succeeding d past ∧ Succeeding (d.afterCalls past) rest := by
  induction past generalizing d with
  | nil => exact (and_iff_right trivial).symm
  | cons call past ih =>
    show (_ ∧ Succeeding _ (past ++ rest)) ↔ (_ ∧ _) ∧ _
    rw [ih, and_assoc]
    rfl

/-- a call that succeeds leaves its row. -/
theorem SubscriptionCall.leaves (hd : d.Catalogued) {s : Subscription}
    (h : call.answer d = .ok (some s)) : call.Leaves d s (d.afterCall call) := by
  unfold SubscriptionCall.answer at h
  unfold Db.afterCall
  rcases call.cases hd with ⟨-, hs⟩ | ⟨-, hs⟩ | ⟨-, t, d', hs, hl⟩
  · rw [hs] at h
    cases h
  · rw [hs] at h
    cases h
  · rw [hs] at h ⊢
    cases h
    exact hl

theorem firstMention_snoc : firstMention (past ++ [call]) ownerId username =
    (firstMention past ownerId username).or
      (if call.about ownerId username then some call.requestedAt else none) := by
  unfold firstMention
  rw [List.find?_append]
  cases past.find? fun call => call.about ownerId username with
  | none =>
    rw [List.find?_singleton]
    split_ifs <;> rfl
  | some c => rfl

/-- **The stored instant is the request time of the first call.** -/
theorem firstActivatedAt_eq (h : Succeeding Db.empty calls) :
    ((Db.empty.afterCalls calls).subscribed ownerId username).map (·.firstActivatedAt) =
      firstMention calls ownerId username := by
  induction calls using List.reverseRecOn with
  | nil => rfl
  | append_singleton calls call ih =>
    obtain ⟨hcalls, ⟨s, hs⟩, -⟩ := Succeeding.append.mp h
    have hd := (called_afterCalls calls).catalogued
    have hl := SubscriptionCall.leaves hd hs
    have hih := ih hcalls
    rw [afterCalls_snoc, hl.subscribed hd, firstMention_snoc, ← hih]
    by_cases ha : call.about ownerId username = true
    · rw [if_pos ha, if_pos ha]
      have hkey : (Db.empty.afterCalls calls).subscribed ownerId username =
          (Db.empty.afterCalls calls).subscribed call.ownerId call.username := by
        unfold SubscriptionCall.about at ha
        rw [Bool.and_eq_true, decide_eq_true_eq, decide_eq_true_eq] at ha
        unfold Db.subscribed
        rw [ha.1, ha.2]
      rw [hkey, hl.row]
      unfold SubscriptionCall.row
      cases (Db.empty.afterCalls calls).subscribed call.ownerId call.username with
      | none => rfl
      | some o => rfl
    · rw [if_neg ha, if_neg ha, Option.or_none]

/-- an enabled subscription has an enabling call. -/
theorem enabled_of_subscribed (h : Succeeding Db.empty calls) {s : Subscription}
    (hs : (Db.empty.afterCalls calls).subscribed ownerId username = some s)
    (hen : s.enabled = true) : (firstEnabling calls ownerId username).isSome := by
  induction calls using List.reverseRecOn with
  | nil => cases hs
  | append_singleton calls call ih =>
    obtain ⟨hcalls, ⟨o, ho⟩, -⟩ := Succeeding.append.mp h
    have hd := (called_afterCalls calls).catalogued
    have hl := SubscriptionCall.leaves hd ho
    rw [afterCalls_snoc, hl.subscribed hd] at hs
    unfold firstEnabling at ih ⊢
    rw [List.find?_append, Option.isSome_map, Option.isSome_or, Bool.or_eq_true]
    by_cases ha : call.about ownerId username = true
    · rw [if_pos ha] at hs
      cases hs
      refine .inr ?_
      rw [List.find?_singleton, ha, ← hl.enabled, hen]
      rfl
    · rw [if_neg ha] at hs
      refine .inl ?_
      rw [← Option.isSome_map]
      exact ih hcalls hs

/-! ## First activation -/

/-- the first call of a kind is the same in a longer history. -/
theorem find?_of_append {p : SubscriptionCall → Bool} {t : Instant}
    (h : (past.find? p).map (·.requestedAt) = some t) :
    ((past ++ rest).find? p).map (·.requestedAt) = some t := by
  obtain ⟨c, hc, ht⟩ := Option.map_eq_some_iff.mp h
  rw [List.find?_append, hc]
  exact congrArg some ht

theorem EnabledFirst.of_append (h : EnabledFirst (past ++ rest) ownerId) :
    EnabledFirst past ownerId := by
  intro username t ht
  have hall : firstMention (past ++ rest) ownerId username = some t := h _ _ (find?_of_append ht)
  -- the channel is mentioned in the past, so its first call is there.
  obtain ⟨c, hc, -⟩ := Option.map_eq_some_iff.mp ht
  have habout := List.find?_some hc
  rw [Bool.and_eq_true] at habout
  obtain ⟨c', hc'⟩ := Option.isSome_iff_exists.mp
    (List.find?_isSome.mpr ⟨c, List.mem_of_find?_eq_some hc, habout.1⟩)
  have hpast : firstMention past ownerId username = some c'.requestedAt :=
    congrArg (Option.map SubscriptionCall.requestedAt) hc'
  have hsame : firstMention (past ++ rest) ownerId username = some c'.requestedAt :=
    find?_of_append hpast
  rw [hpast, ← hsame, hall]

theorem EnabledFirst.instant (h : EnabledFirst calls ownerId) (hs : Succeeding Db.empty calls)
    {t : Instant} (ht : firstEnabling calls ownerId username = some t) :
    ((Db.empty.afterCalls calls).subscribed ownerId username).map (·.firstActivatedAt) = some t := by
  rw [firstActivatedAt_eq hs]
  exact h username t ht

/-- a window starts at the first activation of an enabled channel, or later. -/
theorem EnabledFirst.window (h : EnabledFirst calls ownerId) (hs : Succeeding Db.empty calls)
    {previous due : Instant}
    (hdue : ownerId ∈ dueOwners (Db.empty.afterCalls calls).subscriptions due) :
    ∃ username s t, (Db.empty.afterCalls calls).subscribed ownerId username = some s ∧
      s.enabled = true ∧ firstEnabling calls ownerId username = some t ∧
      t ≤ scheduledStart (activation (Db.empty.afterCalls calls).subscriptions due ownerId)
        previous due := by
  have hcalled := called_afterCalls calls
  obtain ⟨s, hmem, howner, hen, hact, -⟩ := (activation_least hdue).1
  obtain ⟨c, hc, hid⟩ := hcalled.catalogued.known s hmem
  obtain ⟨call, -, -, hname⟩ := hcalled.channels c hc
  have hsub : (Db.empty.afterCalls calls).subscribed ownerId call.username = some s :=
    (subscribed_iff hcalled.catalogued).mpr ⟨hmem, howner, c, hc, hid, hname⟩
  obtain ⟨t, ht⟩ := Option.isSome_iff_exists.mp (enabled_of_subscribed hs hsub hen)
  have hfirst := h.instant hs ht
  rw [hsub] at hfirst
  refine ⟨call.username, s, t, hsub, hen, ht, ?_⟩
  have hactivated : s.firstActivatedAt = t := Option.some.inj hfirst
  rw [← hact, hactivated]
  exact le_max_left _ _

/-- **The stored instant is the first activation, and no window starts before it, exactly when the
first call about each channel that is ever enabled has the request time of the first enabling
one.** -/
theorem activated_first_iff (hs : Succeeding Db.empty calls) (ownerId : Uuid) :
    ActivatedFirst calls ownerId ↔ EnabledFirst calls ownerId := by
  constructor
  · intro h username t ht
    rw [← firstActivatedAt_eq hs]
    exact h.instant calls [] (List.append_nil calls).symm username t ht
  · intro h
    refine ⟨fun past rest he username t ht => ?_, fun past rest he previous due hdue => ?_⟩
    · subst he
      exact h.of_append.instant (Succeeding.append.mp hs).1 ht
    · subst he
      exact h.of_append.window (Succeeding.append.mp hs).1 hdue

end

namespace Sample

/-- a channel that is first mentioned by a disabling call and enabled a week later. -/
def pausedFirst : List SubscriptionCall :=
  [⟨1, 11, 7, "rust_news", false, 0⟩, ⟨2, 12, 7, "rust_news", true, week⟩]

/-- a channel that is enabled, disabled and enabled again. -/
def pausedLater : List SubscriptionCall :=
  [⟨1, 11, 7, "rust_news", true, 0⟩, ⟨2, 12, 7, "Rust_News", false, second⟩,
    ⟨3, 13, 7, "rust_news", true, week⟩]

end Sample

theorem pausedFirst_before : Succeeding Db.empty Sample.pausedFirst ∧
    ¬ ActivatedFirst Sample.pausedFirst 7 := by
  refine ⟨⟨⟨⟨1, 7, 11, 0, false⟩, by rfl⟩, ⟨⟨1, 7, 11, 0, true⟩, by rfl⟩, trivial⟩, fun h => ?_⟩
  have hweek := h.instant Sample.pausedFirst [] rfl "rust_news" week (by decide +kernel)
  exact absurd hweek (by decide +kernel)

theorem pausedLater_activated : Succeeding Db.empty Sample.pausedLater ∧
    ActivatedFirst Sample.pausedLater 7 := by
  have hs : Succeeding Db.empty Sample.pausedLater :=
    ⟨⟨⟨1, 7, 11, 0, true⟩, by rfl⟩, ⟨⟨1, 7, 11, 0, false⟩, by rfl⟩, ⟨⟨1, 7, 11, 0, true⟩, by rfl⟩,
      trivial⟩
  refine ⟨hs, (activated_first_iff hs 7).mpr fun username t ht => ?_⟩
  have hcase : lower "Rust_News" = lower "rust_news" := by decide +kernel
  unfold firstEnabling Sample.pausedLater at ht
  unfold firstMention Sample.pausedLater
  by_cases hu : lower "rust_news" = lower username
  · simpa [SubscriptionCall.about, hu] using ht
  · simp [SubscriptionCall.about, hu, hcase] at ht

end ChannelDigests
