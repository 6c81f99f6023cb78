import ChannelDigests.Worker

/-!
# Contracts over documents

An instance of `Contracts` in which bytes are the typed values themselves and every text that the
service writes is accepted.  It shows that the laws of `Contracts` can be met, and programs of the
service run over it.

* `Document`, `Packet`     payloads, and the bytes of an envelope or of a payload;
* `textDigest`             the digest of a text: its characters as the digits of a number;
* `textDigest_injective`   different texts have different digests;
* `documents`              the instance, which can encode one manifest;
* `answers`, `starts`      answers that every task may be given, and when a task may start;
* `Sample`                 an owner subscribes to a channel and asks for one digest of it.
-/

namespace ChannelDigests
open Lib

/-! ## Digests of texts -/

/-- the characters as digits, one above their code points. -/
def digits : List Char → Nat
  | [] => 0
  | c :: cs => digits cs * 1114113 + (c.toNat + 1)

def textDigest (s : String) : Digest := digits s.toList

theorem char_lt (c : Char) : c.toNat < 1114112 := by
  have := c.valid
  simp only [UInt32.isValidChar, Nat.isValidChar] at this
  unfold Char.toNat
  omega

theorem digits_pos (c : Char) (cs : List Char) : 0 < digits (c :: cs) := by
  rw [digits]
  exact Nat.succ_pos _

theorem digits_injective : Function.Injective digits := by
  intro a
  induction a with
  | nil =>
    intro b h
    cases b with
    | nil => rfl
    | cons c b => exact absurd h (digits_pos c b).ne
  | cons c a ih =>
    intro b h
    cases b with
    | nil => exact absurd h (digits_pos c a).ne'
    | cons c' b =>
      rw [digits, digits] at h
      have hc := char_lt c
      have hc' := char_lt c'
      obtain ⟨hd, hn⟩ : digits a = digits b ∧ c.toNat = c'.toNat := by omega
      rw [ih hd, show c = c' from Char.ext (UInt32.toNat_inj.mp hn)]

/-- **Different texts have different digests.** -/
theorem textDigest_injective : Function.Injective textDigest := fun _ _ h =>
  String.toList_inj.mp (digits_injective h)

/-! ## Payloads and bytes -/

/-- a payload: a typed value, or a command that names its operation and owner and nothing else. -/
inductive Document where
  | subscription (c : SubscriptionSetRequested)
  | run (c : RunRequested)
  | occurrence (c : ScheduleOccurrenceRequested)
  | completed (fact : RecapCompleted)
  | failed (fact : RecapFailed)
  | recapRequest (r : RecapRequested)
  | unreadable (operationId owner : Option Uuid)
  deriving DecidableEq

/-- bytes: an envelope, or the bytes of a payload. -/
inductive Packet where
  | command (e : CommandEnvelope Document)
  | event (e : EventEnvelope Document)
  | payload (d : Document)

/-- the codec of one kind of document. -/
def documentCodec {T : Type} (wrap : T → Document) (read : Document → Option T)
    (h : ∀ t, read (wrap t) = some t) (valid : T → Bool) : Codec Document Packet T where
  payloadAs := read
  toVec t := some (.payload (wrap t))
  fromSlice
    | .payload d => read d
    | _ => none
  validForPublish := valid
  roundTrip {t b} hb := by
    cases hb
    exact h t

/-- the contracts over documents; `book` is the manifest that they can encode. -/
def documents (book : ContractManifest) : Contracts where
  Bytes := Packet
  Object := Document
  commandEnvelope
    | .command e => some e
    | _ => none
  eventEnvelope
    | .event e => some e
    | _ => none
  subscription := documentCodec .subscription (fun | .subscription c => some c | _ => none)
    (fun _ => rfl) fun c => c.channelUsername ≠ ""
  run := documentCodec .run (fun | .run c => some c | _ => none) (fun _ => rfl)
    fun c => c.windowStart < c.windowEnd
  occurrence := documentCodec .occurrence (fun | .occurrence c => some c | _ => none)
    (fun _ => rfl) fun c => c.previousDueAt < c.dueAt
  completed := documentCodec .completed (fun | .completed f => some f | _ => none) (fun _ => rfl)
    fun f => f.selectedCount = f.includedCount + f.omittedCount
  failed := documentCodec .failed (fun | .failed f => some f | _ => none) (fun _ => rfl)
    fun _ => true
  recapRequest := documentCodec .recapRequest (fun | .recapRequest r => some r | _ => none)
    (fun _ => rfl) fun r => 0 < r.sourceCount
  operationIdOf
    | .unreadable operationId _ => operationId
    | _ => none
  ownerOf
    | .unreadable _ owner => owner
    | _ => none
  objectToVec d := some (.payload d)
  bytesDigest _ := 0
  textDigest := textDigest
  canonicalText m := if m = book then some "manifest" else none
  readManifest t := if t = "manifest" then some book else none
  readCanonical {m t} h := by
    split_ifs at h with hm
    cases h
    rw [hm]
    rfl
  digestWindow a b := a < b
  wireTimestamp _ := true
  operationStage s := s ≠ ""
  entityRef s := s ≠ ""
  errorCode s := s ≠ ""
  safeMessage s := s ≠ ""
  validReport _ := true
  reference _ := true
  encodes _ := true
  cronExpression s := s ≠ ""

/-! ## Schedules -/

/-- answers at the time `now`: no statement is lost, identities are drawn from `base` on, every
channel resolves and shows `page`, and the broker acknowledges. -/
def answers (now : Instant) (base : Nat) (page : ProviderPage) : Nat → (q : Question) → q.Answer
  | n, .moment => ⟨now, fun k => base + 10 * n + k, none⟩
  | _, .resolve _ => .ok 1
  | _, .fetch _ _ _ => .ok page
  | _, .publish _ => true

section
variable {C : Contracts} {S : Setting}

/-- **Every task may be given these answers.** -/
theorem answers_given (t : Task C) (now : Instant) (base : Nat) (page : ProviderPage) (n : Nat)
    (q : Question) : (worker C S).answers t q (answers now base page n q) := by
  cases q with
  | moment => exact fun _ => rfl
  | _ => trivial

/-- a task may start beside any threads when nothing is excluded. -/
theorem starts {ts : List (Thread service (Task C) Empty Ending)} {t : Task C}
    (hs : ∀ message, t.message S.language = some message → S.sent message)
    (hserial : ¬ S.serial) (hc : S.crew = .many) : (worker C S).starts ts t :=
  ⟨hs, by simp [hc], fun u _ _ => ⟨by simp [hc], by simp [hc], fun h => absurd h hserial⟩⟩

/-- a task that executes nothing may start beside others of its kind. -/
theorem starts_beside {ts : List (Thread service (Task C) Empty Ending)} {t : Task C}
    (hs : ∀ message, t.message S.language = some message → S.sent message)
    (hserial : ¬ S.serial) (ht : t.isExecutor = false)
    (hts : ts.all (fun u => !u.task.isExecutor) = true) : (worker C S).starts ts t := by
  refine ⟨hs, fun _ => ht, fun u hu _ => ?_⟩
  have := List.all_eq_true.mp hts u hu
  exact ⟨fun _ => ⟨by simpa using this, ht⟩, by simp [ht], fun h => absurd h hserial⟩

/-- a task may start beside threads that have answered. -/
theorem starts_quiet {ts : List (Thread service (Task C) Empty Ending)} {t : Task C}
    (hs : ∀ message, t.message S.language = some message → S.sent message)
    (hc : S.crew = .none → t.isExecutor = false)
    (hts : ts.all (fun u => u.rest.answer?.isSome) = true) : (worker C S).starts ts t := by
  refine ⟨hs, hc, fun u hu hr => ?_⟩
  have := List.all_eq_true.mp hts u hu
  rw [hr.2] at this
  cases this

end

/-! ## A sample -/

namespace Sample

def subscribe : SubscriptionSetRequested := ⟨11, 7, "subscribe", "rustlang", true⟩

def request : RunRequested := ⟨12, 7, "digest", 50, .onDemand, 0, 1000000000, .ru⟩

/-- a later run over the same window. -/
def again : RunRequested := ⟨13, 7, "digest again", 51, .onDemand, 0, 1000000000, .ru⟩

/-- the channel shows one post. -/
def page : ProviderPage := ⟨[⟨5, "hello", some 1000000, false⟩], none⟩

/-- the manifest of that post, under the identities that the schedule `day` draws. -/
def manifest : ContractManifest where
  manifestRef := 3770
  owner := 7
  digestRunId := 50
  windowStart := 0
  windowEnd := 1000000000
  sources := [⟨3890, 1991, "rustlang", 5, 1000000, "hello", textDigest "hello",
    some "https://t.me/rustlang/5", 1⟩]

abbrev contracts : Contracts := documents manifest

def fact : RecapCompleted :=
  ⟨7, 50, 70, some 71, "result:70", 5, textDigest "manifest", 1, 1, 0, 1⟩

def failure : RecapFailed := ⟨7, 50, textDigest "manifest", .providerTimeout⟩

def messages : List Message :=
  [.command (.subscription 101 subscribe), .command (.run 102 request), .completed 103 fact,
    .failed 104 failure, .command (.run 105 again)]

/-- a worker that is sent these messages. -/
def setting (crew : Crew) (serial : Prop) : Setting := ⟨.ru, (· ∈ messages), crew, serial⟩

/-- the subscription and the run are accepted, and the run is executed. -/
def day : List (Turn service (Task contracts)) :=
  [.start (.acceptSubscription 101 (.payload (.subscription subscribe))),
    .run 0 100 (answers 5 1000 page),
    .start (.acceptRun 102 (.payload (.run request))), .run 1 100 (answers 6 2000 page),
    .start (.executeOne 10), .run 2 100 (answers 7 3000 page)]

/-- and the recap is settled. -/
def wholeDay : List (Turn service (Task contracts)) :=
  day ++ [.start (.settleCompletion 103 (.payload (.completed fact))),
    .run 3 100 (answers 8 4000 page)]

theorem day_allowed : Pool.AllAllowed (worker contracts (setting .many False))
    ⟨[], Db.empty⟩ day := by
  refine ⟨starts ?_ id rfl, fun u _ => answers_given _ _ _ _,
    starts ?_ id rfl, fun u _ => answers_given _ _ _ _,
    starts ?_ id rfl, fun u _ => answers_given _ _ _ _, trivial⟩
  · rintro _ ⟨⟩
    simp [setting, messages]
  · rintro _ ⟨⟩
    simp [setting, messages]
  · rintro _ ⟨⟩

/-- the same day of a worker with one executor. -/
theorem day_allowed_one : Pool.AllAllowed (worker contracts (setting .one True))
    ⟨[], Db.empty⟩ day := by
  refine ⟨starts_quiet ?_ nofun rfl, fun u _ => answers_given _ _ _ _,
    starts_quiet ?_ nofun (by decide +kernel), fun u _ => answers_given _ _ _ _,
    starts_quiet ?_ nofun (by decide +kernel), fun u _ => answers_given _ _ _ _, trivial⟩
  · rintro _ ⟨⟩
    simp [setting, messages]
  · rintro _ ⟨⟩
    simp [setting, messages]
  · rintro _ ⟨⟩

/-- the database in which the run waits for its recap. -/
def waiting : Db := (Pool.play (worker contracts (setting .many False)) day ⟨[], Db.empty⟩).state

theorem waiting_reachable : Reachable contracts (setting .many False) waiting :=
  ⟨_, Pool.play_reach day_allowed⟩

theorem wholeDay_allowed : Pool.AllAllowed (worker contracts (setting .many False))
    ⟨[], Db.empty⟩ wholeDay := by
  refine ⟨starts ?_ id rfl, fun u _ => answers_given _ _ _ _,
    starts ?_ id rfl, fun u _ => answers_given _ _ _ _,
    starts ?_ id rfl, fun u _ => answers_given _ _ _ _,
    starts ?_ id rfl, fun u _ => answers_given _ _ _ _, trivial⟩
  · rintro _ ⟨⟩
    simp [setting, messages]
  · rintro _ ⟨⟩
    simp [setting, messages]
  · rintro _ ⟨⟩
  · rintro _ ⟨⟩
    simp [setting, messages]

/-- the database at the end of that day. -/
def settled : Db :=
  (Pool.play (worker contracts (setting .many False)) wholeDay ⟨[], Db.empty⟩).state

theorem settled_reachable : Reachable contracts (setting .many False) settled :=
  ⟨_, Pool.play_reach wholeDay_allowed⟩

end Sample

end ChannelDigests
