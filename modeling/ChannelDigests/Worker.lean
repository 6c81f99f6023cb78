import ChannelDigests.Lib.Pool
import ChannelDigests.Delivery
import ChannelDigests.ExecutorRules
import ChannelDigests.Keys

/-!
# The worker

The worker handles deliveries, executes runs, reaps and sweeps, publishes and registers, all on one
database.  `worker` is the system of these tasks; a `Setting` says which messages are sent, how many
executors work and whether deliveries are handled one at a time.

* `Task`, `Ending`, `Task.body`   what may run, how it ends, and its program;
* `Setting`, `worker`             the system;
* `Task.Sends`, `Setting.Beside`  which kinds of changes a task makes, and which may happen
                                  beside it.
-/

namespace ChannelDigests
open Lib Prog

/-- what a worker may run; no statement of a calm delivery is lost. -/
inductive Task (C : Contracts) where
  | deliver (calm : Bool) (transport : String) (bytes : C.Bytes)
  | acceptSubscription (messageId : Uuid) (payload : C.Bytes)
  | acceptRun (messageId : Uuid) (payload : C.Bytes)
  | acceptOccurrence (o : OccurrenceRequest)
  | settleCompletion (messageId : Uuid) (completion : C.Bytes)
  | settleFailure (messageId : Uuid) (failure : C.Bytes)
  | executeOne (sourceCount : Nat)
  | reapOnce (deadline : Int) (now : Instant)
  | sweepOnce (bodyDays : Nat) (now : Instant)
  | publishOutbox
  | register (schedule : Option ScheduleConfig)

/-- how a task ends; only the endings of deliveries and handlers are told apart. -/
inductive Ending where
  | disposition (d : DeliveryDisposition)
  | intake (r : Except IntakeError IntakeOutcome)
  | coordinator (r : Except CoordinatorError IntakeOutcome)
  | ended
  deriving DecidableEq

/-- a program with its outcome as the ending. -/
def ending {ε α : Type} (f : Except ε α → Ending) (p : Action ε α) : Action Empty Ending :=
  p.next fun r => .done (.ok (f r))

/-- how a worker is set up. -/
structure Setting where
  /-- the language of scheduled runs. -/
  language : OutputLanguage
  /-- the messages that are sent. -/
  sent : Message → Prop
  crew : Crew
  /-- deliveries are handled one at a time. -/
  serial : Prop

namespace Task
variable {C : Contracts}

/-- the program of a task. -/
def body (language : OutputLanguage) : Task C → Action Empty Ending
  | .deliver _ transport bytes =>
    ending (fun
      | .ok d => .disposition d
      | .error _ => .ended) (handle C language transport bytes)
  | .acceptSubscription messageId payload =>
    ending .intake (ChannelDigests.acceptSubscription C messageId payload)
  | .acceptRun messageId payload => ending .intake (ChannelDigests.acceptRun C messageId payload)
  | .acceptOccurrence o => ending .coordinator (ChannelDigests.acceptOccurrence C o)
  | .settleCompletion messageId completion =>
    ending .coordinator (ChannelDigests.settleCompletion C messageId completion)
  | .settleFailure messageId failure =>
    ending .coordinator (ChannelDigests.settleFailure C messageId failure)
  | .executeOne sourceCount => ending (fun _ => .ended) (ChannelDigests.executeOne C sourceCount)
  | .reapOnce deadline now => ending (fun _ => .ended) (ChannelDigests.reapOnce C deadline now)
  | .sweepOnce bodyDays now => ending (fun _ => .ended) (ChannelDigests.sweepOnce bodyDays now)
  | .publishOutbox => ending (fun _ => .ended) (ChannelDigests.publishOutbox C)
  | .register schedule => ending (fun _ => .ended) (enqueueScheduleRegistration C schedule)

/-- the message that a task handles. -/
def message (language : OutputLanguage) : Task C → Option Message
  | .deliver _ transport bytes => received C language transport bytes
  | .acceptSubscription messageId payload =>
    (C.subscription.fromSlice payload).map fun c => .command (.subscription messageId c)
  | .acceptRun messageId payload =>
    (C.run.fromSlice payload).map fun c => .command (.run messageId c)
  | .acceptOccurrence o => some (.command (.occurrence o))
  | .settleCompletion messageId completion =>
    (C.completed.fromSlice completion).map fun fact => .completed messageId fact
  | .settleFailure messageId failure =>
    (C.failed.fromSlice failure).map fun fact => .failed messageId fact
  | _ => none

/-- the task handles a message. -/
def isDelivery : Task C → Bool
  | .deliver _ _ _ | .acceptSubscription _ _ | .acceptRun _ _ | .acceptOccurrence _
  | .settleCompletion _ _ | .settleFailure _ _ => true
  | _ => false

def isExecutor : Task C → Bool
  | .executeOne _ => true
  | _ => false

def isCalm : Task C → Bool
  | .deliver calm _ _ => calm
  | _ => false

/-- the task makes changes of this kind. -/
def Sends (t : Task C) (k : Kind) : Prop :=
  (k.isExecutor = true → t.isExecutor = true) ∧ (k.isDelivery = true → t.isDelivery = true)

end Task

namespace Setting
variable {C : Contracts} (S : Setting)

/-- changes of this kind may happen beside the task. -/
def Allows (t : Task C) (k : Kind) : Prop :=
  (S.crew = .none ∨ (S.crew = .one ∧ t.isExecutor = true) → k.isExecutor = false) ∧
    (S.serial → t.isDelivery = true → k.isDelivery = false)

/-- the two tasks may run at the same time. -/
def Beside (t u : Task C) : Prop :=
  (S.crew = .none → t.isExecutor = false ∧ u.isExecutor = false) ∧
    (S.crew = .one → ¬ (t.isExecutor = true ∧ u.isExecutor = true)) ∧
    (S.serial → ¬ (t.isDelivery = true ∧ u.isDelivery = true))

theorem Beside.symm {t u : Task C} (h : S.Beside t u) : S.Beside u t :=
  ⟨fun hc => (h.1 hc).symm, fun hc hb => h.2.1 hc hb.symm, fun hc hb => h.2.2 hc hb.symm⟩

/-- what a task sends is allowed beside the others. -/
theorem Beside.allows {t u : Task C} (h : S.Beside t u) {k : Kind} (hk : t.Sends k) :
    S.Allows u k := by
  refine ⟨fun hc => Bool.eq_false_iff.mpr fun he => ?_, fun hs hu => Bool.eq_false_iff.mpr fun hd => ?_⟩
  · rcases hc with hc | ⟨hc, hu⟩
    · exact absurd (hk.1 he) (by simp [(h.1 hc).1])
    · exact h.2.1 hc ⟨hk.1 he, hu⟩
  · exact h.2.2 hs ⟨hk.2 hd, hu⟩

/-- the changes that the others make while a task runs. -/
def Others (C : Contracts) (t : Task C) : Db → Db → Prop := Evolves C S.sent S.crew (S.Allows t)

/-- the changes that a task makes. -/
def Makes (t : Task C) (d d' : Db) : Prop :=
  d' = d ∨ ∃ k, t.Sends k ∧ Change C S.sent S.crew k d d'

end Setting

/-- **The worker**: its tasks, which may start beside which, and what may be answered. -/
def worker (C : Contracts) (S : Setting) : System service (Task C) Empty Ending where
  body := Task.body S.language
  starts ts t := (∀ message, t.message S.language = some message → S.sent message) ∧
    (S.crew = .none → t.isExecutor = false) ∧ ∀ u ∈ ts, u.Running → S.Beside u.task t
  answers t q a :=
    match q, a with
    | .moment, m => t.isCalm = true → m.fuse = none
    | _, _ => True

/-- the databases that a worker reaches from an empty one. -/
def Reachable (C : Contracts) (S : Setting) (d : Db) : Prop :=
  ∃ ts, Pool.Reach (worker C S) ⟨[], Db.empty⟩ ⟨ts, d⟩

end ChannelDigests
