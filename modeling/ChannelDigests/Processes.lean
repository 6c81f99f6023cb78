import ChannelDigests.Agreement
import ChannelDigests.Lib.Loops

/-!
# The worker process

The process queues its registration, then runs four loops beside each other: the bus, the provider,
the reaper and retention.  Each loop begins one job at a time.  A signal begins the drain, and the
process may end at any point and be started again.

* `Job`, `Finish`      the jobs of the loops, and what a loop is told of their ends;
* `BusStage`, `ProviderStage`, `TimerStage`, `MainStage`   where a loop stands between its jobs;
* `Control.Moves`, `Control.Begins`, `Control.Ends`   how the loops go on;
* `process`            the loops of a process, with its restarts;
* `process_reachable`  **what processes reach is what a worker reaches** whose deliveries are
  handled one at a time and that has one executor;
* `process_answers`    **what the broker is told is durable**, and was reported before;
* `process_drains`     **a draining process begins at most five more jobs**.
-/

namespace ChannelDigests
open Lib Prog

/-! ## Jobs -/

/-- what a process is configured with. -/
structure WorkerConfig where
  schedule : Option ScheduleConfig
  sourceCount : Nat
  runDeadline : Int
  bodyDays : Nat

/-- a message of the broker, with its subject. -/
structure BrokerMessage (C : Contracts) where
  subject : String
  payload : C.Bytes

/-- the jobs of a process. -/
inductive Job (C : Contracts) where
  | register
  | publish
  | deliver (message : BrokerMessage C)
  | execute
  | reap (now : Instant)
  | sweep (now : Instant)

/-- what a loop is told of the end of a job. -/
inductive Finish where
  | registered (succeeded : Bool)
  | published (succeeded : Bool)
  | handled (disposition : DeliveryDisposition)
  | ended
  deriving DecidableEq

/-- `is_ok`. -/
def succeeded {ε α : Type} : Except ε α → Bool
  | .ok _ => true
  | .error _ => false

section
variable (C : Contracts) (config : WorkerConfig) (language : OutputLanguage)

/-- the program of a job. -/
def Job.body : Job C → Action Empty Finish
  | .register =>
    (enqueueScheduleRegistration C config.schedule).next fun r =>
      .done (.ok (.registered (succeeded r)))
  | .publish => (publishOutbox C).next fun r => .done (.ok (.published (succeeded r)))
  | .deliver message =>
    (handle C language message.subject message.payload).next fun r => .done (r.map .handled)
  | .execute => (executeOne C config.sourceCount).next fun _ => .done (.ok .ended)
  | .reap now => (reapOnce C config.runDeadline now).next fun _ => .done (.ok .ended)
  | .sweep now => (sweepOnce config.bodyDays now).next fun _ => .done (.ok .ended)

/-- the task of a worker that a job is. -/
def Job.task : Job C → Task C
  | .register => .register config.schedule
  | .publish => .publishOutbox
  | .deliver message => .deliver false message.subject message.payload
  | .execute => .executeOne config.sourceCount
  | .reap now => .reapOnce config.runDeadline now
  | .sweep now => .sweepOnce config.bodyDays now

end

/-- how the task ends when the job does. -/
def Job.result {C : Contracts} : Job C → Except Empty Finish → Except Empty Ending
  | .deliver _, .ok (.handled disposition) => .ok (.disposition disposition)
  | _, _ => .ok .ended

/-! ## The loops -/

/-- the loops, and the function that starts them. -/
inductive Lane where
  | main
  | bus
  | provider
  | reaper
  | retention
  deriving DecidableEq

instance Lane.fintype : Fintype Lane where
  elems := {.main, .bus, .provider, .reaper, .retention}
  complete lane := by cases lane <;> decide

/-- `run_worker`: registering, serving, and from the signal on draining. -/
inductive MainStage where
  | starting
  | registering
  | failed
  | serving
  | draining
  | exited
  deriving DecidableEq

/-- `supervise_bus`, `consume_once` and `process_delivery`; a loop is clear once its `select` has
seen no drain. -/
inductive BusStage (C : Contracts) where
  | away
  | connecting
  | opening
  | listening (clear : Bool)
  | ticking
  | handling (message : BrokerMessage C)
  | handled (message : BrokerMessage C) (disposition : DeliveryDisposition)
  | reporting (message : BrokerMessage C) (disposition : DeliveryDisposition)
  | answering (message : BrokerMessage C) (disposition : DeliveryDisposition)
  | stopped

/-- `supervise_provider`. -/
inductive ProviderStage where
  | away
  | connecting
  | connected (clear : Bool)
  | executing
  | stopped
  deriving DecidableEq

/-- `supervise_reaper` and `supervise_retention`. -/
inductive TimerStage where
  | waiting (clear : Bool)
  | running
  | stopped
  deriving DecidableEq

/-- what the broker was told, in this order. -/
abbrev Answers (C : Contracts) := List (BrokerMessage C × DeliveryDisposition)

/-- where the loops stand, and what the broker was told. -/
structure Control (C : Contracts) where
  main : MainStage
  bus : BusStage C
  provider : ProviderStage
  reaper : TimerStage
  retention : TimerStage
  answers : Answers C

/-- a process that has just been started. -/
def Control.started {C : Contracts} (answers : Answers C) : Control C where
  main := .starting
  bus := .away
  provider := .away
  reaper := .waiting false
  retention := .waiting false
  answers := answers

/-- the drain has begun. -/
def MainStage.drain : MainStage → Bool
  | .draining | .exited => true
  | _ => false

/-- the loops run. -/
def MainStage.spawned : MainStage → Bool
  | .serving | .draining | .exited => true
  | _ => false

/-- a move of the bus loop; `drain` is the flag that it looks at. -/
inductive BusStage.Moves {C : Contracts} (drain : Bool) : BusStage C → BusStage C → Prop where
  | stays_away : drain = true → Moves drain .away .stopped
  | connects : drain = false → Moves drain .away .connecting
  | refused : Moves drain .connecting .away
  | clears : drain = false → Moves drain (.listening false) (.listening true)
  | stops {clear} : drain = true → Moves drain (.listening clear) .stopped
  | lost {clear} : Moves drain (.listening clear) .away
  /-- the answer is not sent. -/
  | unanswered {message disposition} : Moves drain (.answering message disposition) .away

inductive ProviderStage.Moves (drain : Bool) : ProviderStage → ProviderStage → Prop where
  | stays_away : drain = true → Moves drain .away .stopped
  | connects : drain = false → Moves drain .away .connecting
  | refused : Moves drain .connecting .away
  | accepted : Moves drain .connecting (.connected false)
  | clears : drain = false → Moves drain (.connected false) (.connected true)
  | stops {clear} : drain = true → Moves drain (.connected clear) .stopped

inductive TimerStage.Moves (drain : Bool) : TimerStage → TimerStage → Prop where
  | clears : drain = false → Moves drain (.waiting false) (.waiting true)
  | stops {clear} : drain = true → Moves drain (.waiting clear) .stopped

section
variable (C : Contracts)

/-- a move between jobs. -/
inductive Control.Moves : Control C → Control C → Prop where
  | signalled {c} : c.main = .serving → Moves c { c with main := .draining }
  | left {c} : c.main = .draining → Moves c { c with main := .exited }
  | bus {c b} : c.main.spawned = true → c.bus.Moves c.main.drain b → Moves c { c with bus := b }
  /-- the answer is sent; its loss is noticed or not. -/
  | answered {c message disposition b} : c.main.spawned = true →
      c.bus = .answering message disposition → b = .listening false ∨ b = .away →
      Moves c { c with bus := b, answers := c.answers ++ [(message, disposition)] }
  | provider {c p} : c.main.spawned = true → c.provider.Moves c.main.drain p →
      Moves c { c with provider := p }
  | reaper {c t} : c.main.spawned = true → c.reaper.Moves c.main.drain t →
      Moves c { c with reaper := t }
  | retention {c t} : c.main.spawned = true → c.retention.Moves c.main.drain t →
      Moves c { c with retention := t }

/-- a loop begins a job; the messages of the broker are those that are sent. -/
inductive Control.Begins (language : OutputLanguage) (sent : Message → Prop) :
    Lane → Job C → Control C → Control C → Prop where
  | register {c} : c.main = .starting →
      Begins language sent .main .register c { c with main := .registering }
  | opens {c} : c.main.spawned = true → c.bus = .connecting →
      Begins language sent .bus .publish c { c with bus := .opening }
  | ticks {c} : c.main.spawned = true → c.bus = .listening true →
      Begins language sent .bus .publish c { c with bus := .ticking }
  | delivers {c message} : c.main.spawned = true → c.bus = .listening true →
      (∀ m, received C language message.subject message.payload = some m → sent m) →
      Begins language sent .bus (.deliver message) c { c with bus := .handling message }
  | reports {c message disposition} : c.main.spawned = true →
      c.bus = .handled message disposition →
      Begins language sent .bus .publish c { c with bus := .reporting message disposition }
  | executes {c} : c.main.spawned = true → c.provider = .connected true →
      Begins language sent .provider .execute c { c with provider := .executing }
  | reaps {c now} : c.main.spawned = true → c.reaper = .waiting true →
      Begins language sent .reaper (.reap now) c { c with reaper := .running }
  | sweeps {c now} : c.main.spawned = true → c.retention = .waiting true →
      Begins language sent .retention (.sweep now) c { c with retention := .running }

/-- a loop goes on after a job. -/
inductive Control.Ends : Lane → Job C → Except Empty Finish → Control C → Control C → Prop where
  | registered {c} : c.main = .registering →
      Ends .main .register (.ok (.registered true)) c { c with main := .serving }
  | unregistered {c} : c.main = .registering →
      Ends .main .register (.ok (.registered false)) c { c with main := .failed }
  | opened {c} : c.bus = .opening →
      Ends .bus .publish (.ok (.published true)) c { c with bus := .listening false }
  | unopened {c} : c.bus = .opening →
      Ends .bus .publish (.ok (.published false)) c { c with bus := .away }
  | ticked {c} : c.bus = .ticking →
      Ends .bus .publish (.ok (.published true)) c { c with bus := .listening false }
  | unticked {c} : c.bus = .ticking →
      Ends .bus .publish (.ok (.published false)) c { c with bus := .away }
  | handled {c message disposition} : c.bus = .handling message →
      Ends .bus (.deliver message) (.ok (.handled disposition)) c
        { c with bus := .handled message disposition }
  | reported {c message disposition} : c.bus = .reporting message disposition →
      Ends .bus .publish (.ok (.published true)) c { c with bus := .answering message disposition }
  | unreported {c message disposition} : c.bus = .reporting message disposition →
      Ends .bus .publish (.ok (.published false)) c { c with bus := .away }
  | executed {c r} : c.provider = .executing →
      Ends .provider .execute r c { c with provider := .connected false }
  | reaped {c now r} : c.reaper = .running →
      Ends .reaper (.reap now) r c { c with reaper := .waiting false }
  | swept {c now r} : c.retention = .running →
      Ends .retention (.sweep now) r c { c with retention := .waiting false }

end

/-- **The worker process**; its memory is lost when it is started again, what the broker was told
is not. -/
def process (C : Contracts) (config : WorkerConfig) (language : OutputLanguage)
    (sent : Message → Prop) : Loops service Lane (Control C) (Job C) Empty Finish where
  body := Job.body C config language
  moves := Control.Moves C
  begins := Control.Begins C language sent
  ends := Control.Ends C
  restart c := .started c.answers

/-- a first process, on an empty database. -/
def firstProcess (C : Contracts) : Site service Lane (Control C) (Job C) Empty Finish :=
  ⟨.started [], fun _ => none, [], Db.empty⟩

/-! ## A process is a worker -/

/-- a worker with one executor that handles its deliveries one at a time. -/
def Setting.single (language : OutputLanguage) (sent : Message → Prop) : Setting :=
  ⟨language, sent, .one, True⟩

section
variable {C : Contracts} {config : WorkerConfig} {language : OutputLanguage}
  {sent : Message → Prop}

/-- the jobs of each lane. -/
def Lane.Fits (language : OutputLanguage) (sent : Message → Prop) : Lane → Job C → Prop
  | .main, .register | .bus, .publish | .provider, .execute => True
  | .bus, .deliver message =>
    ∀ m, received C language message.subject message.payload = some m → sent m
  | .reaper, .reap _ | .retention, .sweep _ => True
  | _, _ => False

theorem Lane.Fits.executor {lane : Lane} {job : Job C} (h : lane.Fits language sent job)
    (he : (job.task C config).isExecutor = true) : lane = .provider := by
  cases job with
  | execute => cases lane <;> first | rfl | exact h.elim
  | _ => cases he

theorem Lane.Fits.delivery {lane : Lane} {job : Job C} (h : lane.Fits language sent job)
    (hd : (job.task C config).isDelivery = true) : lane = .bus := by
  cases job with
  | deliver message => cases lane <;> first | rfl | exact h.elim
  | _ => cases hd

/-- only messages that are sent are handled. -/
theorem Lane.Fits.message {lane : Lane} {job : Job C} (h : lane.Fits language sent job)
    {m : Message} (hm : (job.task C config).message language = some m) : sent m := by
  cases job with
  | deliver message =>
    cases lane with
    | bus => exact h m hm
    | _ => exact h.elim
  | _ => cases hm

theorem Job.body_task (job : Job C) : (job.task C config).body language =
    (job.body C config language).next fun r => .done (job.result r) := by
  cases job with
  | deliver message =>
    show ending _ _ = _
    unfold ending Job.body
    rw [next_next]
    congr 1
    funext r
    cases r with
    | ok disposition => rfl
    | error e => cases e
  | _ =>
    unfold Job.body
    rw [next_next]
    rfl

/-- **A process runs the tasks of such a worker.** -/
theorem process_enacts : Enacts (process C config language sent)
    (worker C (.single language sent)) (Lane.Fits language sent) (Job.task C config) Job.result where
  body job := job.body_task
  begins h := by
    cases h with
    | delivers _ _ hsent => exact hsent
    | _ => exact trivial
  starts := by
    intro lane job ts hfit hothers
    refine ⟨fun m hm => hfit.message hm, fun hcrew => (Crew.noConfusion hcrew), fun u hu hr => ?_⟩
    obtain ⟨other, job', hne, hfit', htask⟩ := hothers u hu hr
    refine ⟨fun hcrew => (Crew.noConfusion hcrew), fun _ hboth => ?_, fun _ hboth => ?_⟩
    · rw [htask] at hboth
      exact hne ((hfit'.executor hboth.1).trans (hfit.executor hboth.2).symm)
    · rw [htask] at hboth
      exact hne ((hfit'.delivery hboth.1).trans (hfit.delivery hboth.2).symm)
  answers job q a := by
    cases q with
    | moment =>
      cases job with
      | deliver message => exact fun hcalm => absurd hcalm Bool.false_ne_true
      | _ => exact fun hcalm => absurd hcalm Bool.false_ne_true
    | _ => exact trivial

/-- **What processes reach is what a worker reaches**: however often the process is started again,
wherever it ended, its database is one that a worker with one executor reaches which handles its
deliveries one at a time. -/
theorem process_reachable {x : Site service Lane (Control C) (Job C) Empty Finish}
    (h : (process C config language sent).Run (firstProcess C) x) :
    Reachable C (.single language sent) x.state := by
  obtain ⟨ts, hreach, -⟩ := Loops.mirrored process_enacts h
  exact ⟨ts, hreach⟩

/-! ## What the broker is told -/

/-- the message was handled so, and then a pass over the outbox succeeded. -/
def Reported (ended : List (Job C × Except Empty Finish)) (message : BrokerMessage C)
    (disposition : DeliveryDisposition) : Prop :=
  List.Sublist [(.deliver message, .ok (.handled disposition)), (.publish, .ok (.published true))]
    ended

/-- what has ended before the loop of the bus is here. -/
def BusStage.Follows (ended : List (Job C × Except Empty Finish)) : BusStage C → Prop
  | .handled message disposition | .reporting message disposition =>
    (.deliver message, .ok (.handled disposition)) ∈ ended
  | .answering message disposition => Reported ended message disposition
  | _ => True

theorem Reported.later {ended : List (Job C × Except Empty Finish)} {message : BrokerMessage C}
    {disposition : DeliveryDisposition} (h : Reported ended message disposition)
    (more : List (Job C × Except Empty Finish)) : Reported (ended ++ more) message disposition :=
  h.trans (List.sublist_append_left _ _)

theorem BusStage.Follows.later {ended : List (Job C × Except Empty Finish)} {b : BusStage C}
    (h : b.Follows ended) (more : List (Job C × Except Empty Finish)) : b.Follows (ended ++ more) := by
  cases b with
  | handled message disposition => exact List.mem_append_left _ h
  | reporting message disposition => exact List.mem_append_left _ h
  | answering message disposition => exact Reported.later h more
  | _ => trivial

/-- the loop of the bus answers what it has handled and reported. -/
structure Control.Sincere (c : Control C) (ended : List (Job C × Except Empty Finish)) : Prop where
  bus : c.bus.Follows ended
  answers : ∀ message disposition, (message, disposition) ∈ c.answers →
    Reported ended message disposition

theorem Control.Sincere.later {c : Control C} {ended : List (Job C × Except Empty Finish)}
    (h : c.Sincere ended) (more : List (Job C × Except Empty Finish)) : c.Sincere (ended ++ more) :=
  ⟨h.bus.later more, fun message disposition hmem => (h.answers message disposition hmem).later more⟩

theorem BusStage.Moves.follows {drain : Bool} {b b' : BusStage C} (h : b.Moves drain b')
    (ended : List (Job C × Except Empty Finish)) : b'.Follows ended := by
  cases h <;> trivial

theorem Control.Sincere.moves {c c' : Control C} {ended : List (Job C × Except Empty Finish)}
    (h : c.Sincere ended) (hm : Control.Moves C c c') : c'.Sincere ended := by
  cases hm with
  | bus _ hb => exact ⟨hb.follows ended, h.answers⟩
  | @answered message disposition b _ hbus hb =>
    have hreported : Reported ended message disposition := by
      have hfollows := h.bus
      rw [hbus] at hfollows
      exact hfollows
    refine ⟨?_, fun message' disposition' hmem => ?_⟩
    · rcases hb with rfl | rfl <;> trivial
    · rcases List.mem_append.mp hmem with hmem | hmem
      · exact h.answers message' disposition' hmem
      · cases List.mem_singleton.mp hmem
        exact hreported
  | _ => exact ⟨h.bus, h.answers⟩

theorem Control.Sincere.begins {c c' : Control C} {ended : List (Job C × Except Empty Finish)}
    {lane : Lane} {job : Job C} (h : c.Sincere ended)
    (hb : Control.Begins C language sent lane job c c') : c'.Sincere ended := by
  cases hb with
  | @reports _ message disposition _ hbus =>
    refine ⟨?_, h.answers⟩
    have hfollows := h.bus
    rw [hbus] at hfollows
    exact hfollows
  | register _ => exact ⟨h.bus, h.answers⟩
  | executes _ _ => exact ⟨h.bus, h.answers⟩
  | reaps _ _ => exact ⟨h.bus, h.answers⟩
  | sweeps _ _ => exact ⟨h.bus, h.answers⟩
  | _ => exact ⟨trivial, h.answers⟩

theorem Control.Sincere.ends {c c' : Control C} {ended : List (Job C × Except Empty Finish)}
    {lane : Lane} {job : Job C} {r : Except Empty Finish} (h : c.Sincere ended)
    (he : Control.Ends C lane job r c c') : c'.Sincere (ended ++ [(job, r)]) := by
  have hlater := h.later [(job, r)]
  cases he with
  | @handled _ message disposition _ =>
    exact ⟨List.mem_append_right _ (List.mem_singleton.mpr rfl), hlater.answers⟩
  | @reported _ message disposition hbus =>
    refine ⟨?_, hlater.answers⟩
    have hfollows := h.bus
    rw [hbus] at hfollows
    have hone : List.Sublist [(Job.deliver message, Except.ok (Finish.handled disposition))] ended :=
      List.singleton_sublist.mpr hfollows
    exact hone.append (List.Sublist.refl [(Job.publish, Except.ok (Finish.published true))])
  | registered _ => exact ⟨hlater.bus, hlater.answers⟩
  | unregistered _ => exact ⟨hlater.bus, hlater.answers⟩
  | executed _ => exact ⟨hlater.bus, hlater.answers⟩
  | reaped _ => exact ⟨hlater.bus, hlater.answers⟩
  | swept _ => exact ⟨hlater.bus, hlater.answers⟩
  | _ => exact ⟨trivial, hlater.answers⟩

/-- **The broker is told only what was handled and reported.** -/
theorem process_sincere {x : Site service Lane (Control C) (Job C) Empty Finish}
    (h : (process C config language sent).Run (firstProcess C) x) : x.control.Sincere x.ended := by
  induction h with
  | refl => exact ⟨trivial, fun message disposition hmem => absurd hmem List.not_mem_nil⟩
  | tail _ hstep ih =>
    rcases hstep with hstep | rfl
    · cases hstep with
      | moved hm => exact ih.moves hm
      | began _ _ _ hb => exact ih.begins hb
      | asked _ _ _ => exact ⟨ih.bus, ih.answers⟩
      | acted _ _ => exact ⟨ih.bus, ih.answers⟩
      | ended _ _ he => exact ih.ends he
    · exact ⟨trivial, ih.answers⟩

/-- **What the broker is told is durable.**  In every run of processes: a message of which the
broker was told `Ack` stays handled, whatever processes come later, and of every answer the message
was handled so, and a pass over the outbox succeeded between its handling and its answer. -/
theorem process_answers (hids : MessageIds sent)
    {x : Site service Lane (Control C) (Job C) Empty Finish}
    (h : (process C config language sent).Run (firstProcess C) x) {message : BrokerMessage C}
    {disposition : DeliveryDisposition} (hmem : (message, disposition) ∈ x.control.answers) :
    Reported x.ended message disposition ∧
      ∀ m, received C language message.subject message.payload = some m → disposition = .ack →
        x.state.Done C m := by
  have hreported := (process_sincere h).answers message disposition hmem
  refine ⟨hreported, fun m hm hack => ?_⟩
  obtain ⟨ts, hreach, hended⟩ := Loops.mirrored process_enacts h
  have hhandled : (Job.deliver message, Except.ok (Finish.handled disposition)) ∈ x.ended :=
    hreported.subset List.mem_cons_self
  obtain ⟨⟨t, p, live⟩, hu, htask, hanswered⟩ := hended _ _ hhandled
  obtain ⟨i, hi⟩ := List.mem_iff_getElem?.mp hu
  obtain ⟨P₀, hP₀, hstart, hrest⟩ := reach_origin hreach hi
  obtain rfl : t = _ := htask
  rw [hack] at hanswered
  exact acknowledged_done hids (fun hcrew => Crew.noConfusion hcrew) trivial hP₀ hm hstart hrest hi
    hanswered

/-! ## The drain -/

/-- the job of a stage of the bus loop. -/
def BusStage.job : BusStage C → Option (Job C)
  | .opening | .ticking | .reporting _ _ => some .publish
  | .handling message => some (.deliver message)
  | _ => none

/-- the stages and the jobs in progress fit together. -/
structure Control.Attends (c : Control C) (jobs : Lane → Option (Job C)) : Prop where
  main : jobs .main = if c.main = .registering then some .register else none
  bus : jobs .bus = c.bus.job
  provider : jobs .provider = if c.provider = .executing then some .execute else none
  reaper : c.reaper = .running ∧ (∃ now, jobs .reaper = some (.reap now)) ∨
    c.reaper ≠ .running ∧ jobs .reaper = none
  retention : c.retention = .running ∧ (∃ now, jobs .retention = some (.sweep now)) ∨
    c.retention ≠ .running ∧ jobs .retention = none

theorem BusStage.Moves.job {drain : Bool} {b b' : BusStage C} (h : b.Moves drain b') :
    b.job = none ∧ b'.job = none := by
  cases h <;> exact ⟨rfl, rfl⟩

theorem ProviderStage.Moves.idle {drain : Bool} {p p' : ProviderStage} (h : p.Moves drain p') :
    p ≠ .executing ∧ p' ≠ .executing := by
  cases h <;> exact ⟨fun he => ProviderStage.noConfusion he, fun he => ProviderStage.noConfusion he⟩

theorem TimerStage.Moves.idle {drain : Bool} {t t' : TimerStage} (h : t.Moves drain t') :
    t ≠ .running ∧ t' ≠ .running := by
  cases h <;> exact ⟨fun he => TimerStage.noConfusion he, fun he => TimerStage.noConfusion he⟩

theorem Control.Attends.moves {c c' : Control C} {jobs : Lane → Option (Job C)}
    (h : c.Attends jobs) (hm : Control.Moves C c c') : c'.Attends jobs := by
  obtain ⟨hmain, hbus, hprovider, hreaper, hretention⟩ := h
  cases hm with
  | signalled hs =>
    rw [hs] at hmain
    exact ⟨hmain, hbus, hprovider, hreaper, hretention⟩
  | left hd =>
    rw [hd] at hmain
    exact ⟨hmain, hbus, hprovider, hreaper, hretention⟩
  | bus _ hb =>
    obtain ⟨hnone, hnone'⟩ := hb.job
    exact ⟨hmain, by rw [hbus, hnone, hnone'], hprovider, hreaper, hretention⟩
  | answered _ hanswering hb =>
    rw [hanswering] at hbus
    refine ⟨hmain, ?_, hprovider, hreaper, hretention⟩
    rcases hb with rfl | rfl <;> exact hbus
  | provider _ hp =>
    obtain ⟨hidle, hidle'⟩ := hp.idle
    rw [if_neg hidle] at hprovider
    exact ⟨hmain, hbus, by rw [if_neg hidle']; exact hprovider, hreaper, hretention⟩
  | reaper _ ht =>
    obtain ⟨hidle, hidle'⟩ := ht.idle
    have hnone := (hreaper.resolve_left fun hr => hidle hr.1).2
    exact ⟨hmain, hbus, hprovider, .inr ⟨hidle', hnone⟩, hretention⟩
  | retention _ ht =>
    obtain ⟨hidle, hidle'⟩ := ht.idle
    have hnone := (hretention.resolve_left fun hr => hidle hr.1).2
    exact ⟨hmain, hbus, hprovider, hreaper, .inr ⟨hidle', hnone⟩⟩

theorem Control.Attends.begins {c c' : Control C} {jobs : Lane → Option (Job C)} {lane : Lane}
    {job : Job C} (h : c.Attends jobs) (hb : Control.Begins C language sent lane job c c') :
    c'.Attends (Function.update jobs lane (some job)) := by
  obtain ⟨hmain, hbus, hprovider, hreaper, hretention⟩ := h
  cases hb with
  | register _ => exact ⟨rfl, hbus, hprovider, hreaper, hretention⟩
  | opens _ _ => exact ⟨hmain, rfl, hprovider, hreaper, hretention⟩
  | ticks _ _ => exact ⟨hmain, rfl, hprovider, hreaper, hretention⟩
  | delivers _ _ _ => exact ⟨hmain, rfl, hprovider, hreaper, hretention⟩
  | reports _ _ => exact ⟨hmain, rfl, hprovider, hreaper, hretention⟩
  | executes _ _ => exact ⟨hmain, hbus, rfl, hreaper, hretention⟩
  | reaps _ _ => exact ⟨hmain, hbus, hprovider, .inl ⟨rfl, _, rfl⟩, hretention⟩
  | sweeps _ _ => exact ⟨hmain, hbus, hprovider, hreaper, .inl ⟨rfl, _, rfl⟩⟩

theorem Control.Attends.ends {c c' : Control C} {jobs : Lane → Option (Job C)} {lane : Lane}
    {job : Job C} {r : Except Empty Finish} (h : c.Attends jobs)
    (he : Control.Ends C lane job r c c') : c'.Attends (Function.update jobs lane none) := by
  obtain ⟨hmain, hbus, hprovider, hreaper, hretention⟩ := h
  cases he with
  | registered _ => exact ⟨rfl, hbus, hprovider, hreaper, hretention⟩
  | unregistered _ => exact ⟨rfl, hbus, hprovider, hreaper, hretention⟩
  | executed _ => exact ⟨hmain, hbus, rfl, hreaper, hretention⟩
  | reaped _ =>
    exact ⟨hmain, hbus, hprovider, .inr ⟨fun he => TimerStage.noConfusion he, rfl⟩, hretention⟩
  | swept _ =>
    exact ⟨hmain, hbus, hprovider, hreaper, .inr ⟨fun he => TimerStage.noConfusion he, rfl⟩⟩
  | _ => exact ⟨hmain, rfl, hprovider, hreaper, hretention⟩

/-- the ends of a job that its loop takes. -/
def Job.Accepts : Job C → Except Empty Finish → Prop
  | .register, r => ∃ b, r = .ok (.registered b)
  | .publish, r => ∃ b, r = .ok (.published b)
  | .deliver _, r => ∃ disposition, r = .ok (.handled disposition)
  | _, _ => True

theorem Job.body_leaves (job : Job C) : (job.body C config language).Leaves job.Accepts := by
  unfold Job.body
  cases job with
  | deliver message =>
    refine leaves_next (fun r => ?_) _
    cases r with
    | ok disposition => exact ⟨disposition, rfl⟩
    | error e => cases e
  | _ => exact leaves_next (fun r => by first | exact ⟨_, rfl⟩ | trivial) _

/-! ### What is left to begin -/

def BusStage.owed : BusStage C → Nat
  | .listening true => 2
  | .connecting | .handling _ | .handled _ _ => 1
  | _ => 0

def ProviderStage.owed : ProviderStage → Nat
  | .connected true => 1
  | _ => 0

def TimerStage.owed : TimerStage → Nat
  | .waiting true => 1
  | _ => 0

/-- the jobs that the loops may still begin once the drain has begun. -/
def Control.owed (c : Control C) : Nat :=
  c.bus.owed + c.provider.owed + c.reaper.owed + c.retention.owed

theorem Control.owed_le (c : Control C) : c.owed ≤ 5 := by
  have hbus : c.bus.owed ≤ 2 := by
    unfold BusStage.owed
    split <;> omega
  have hprovider : c.provider.owed ≤ 1 := by
    unfold ProviderStage.owed
    split <;> omega
  have htimer : ∀ t : TimerStage, t.owed ≤ 1 := fun t => by
    unfold TimerStage.owed
    split <;> omega
  have hreaper := htimer c.reaper
  have hretention := htimer c.retention
  unfold Control.owed
  omega

/-- how far a stage is from its end, once the drain has begun. -/
def MainStage.rank : MainStage → Nat
  | .draining => 1
  | _ => 0

def BusStage.rank : BusStage C → Nat
  | .stopped => 0
  | .away => 1
  | .listening false => 2
  | .opening | .ticking | .answering _ _ => 3
  | .connecting | .reporting _ _ => 4
  | .handled _ _ => 5
  | .handling _ => 6
  | .listening true => 7

def ProviderStage.rank : ProviderStage → Nat
  | .stopped => 0
  | .away => 1
  | .connected false => 2
  | .connecting | .executing => 3
  | .connected true => 4

def TimerStage.rank : TimerStage → Nat
  | .stopped => 0
  | .waiting false => 1
  | .running => 2
  | .waiting true => 3

def Control.rank (c : Control C) : Nat :=
  c.main.rank + c.bus.rank + c.provider.rank + c.reaper.rank + c.retention.rank

theorem BusStage.Moves.less {b b' : BusStage C} (h : b.Moves true b') :
    b'.owed ≤ b.owed ∧ b'.rank < b.rank := by
  cases h with
  | @stops clear _ => cases clear <;> simp [BusStage.owed, BusStage.rank]
  | @lost clear => cases clear <;> simp [BusStage.owed, BusStage.rank]
  | connects hd => cases hd
  | clears hd => cases hd
  | _ => simp [BusStage.owed, BusStage.rank]

theorem ProviderStage.Moves.less {p p' : ProviderStage} (h : p.Moves true p') :
    p'.owed ≤ p.owed ∧ p'.rank < p.rank := by
  cases h with
  | @stops clear _ => cases clear <;> decide
  | connects hd => cases hd
  | clears hd => cases hd
  | _ => decide

theorem TimerStage.Moves.less {t t' : TimerStage} (h : t.Moves true t') :
    t'.owed ≤ t.owed ∧ t'.rank < t.rank := by
  cases h with
  | @stops clear _ => cases clear <;> decide
  | clears hd => cases hd

/-- a move of a draining process leaves less to do. -/
theorem Control.Moves.less {c c' : Control C} (hc : c.main.drain = true)
    (h : Control.Moves C c c') :
    c'.main.drain = true ∧ c'.owed ≤ c.owed ∧ c'.rank < c.rank := by
  cases h with
  | signalled hs =>
    rw [hs] at hc
    cases hc
  | left hd =>
    have hrank : MainStage.exited.rank < c.main.rank := by
      rw [hd]
      decide
    refine ⟨rfl, le_rfl, ?_⟩
    simp only [Control.rank]
    omega
  | @answered message disposition b _ hbus hb =>
    have hless : b.owed ≤ c.bus.owed ∧ b.rank < c.bus.rank := by
      rw [hbus]
      rcases hb with rfl | rfl <;> simp [BusStage.owed, BusStage.rank]
    refine ⟨hc, ?_, ?_⟩ <;> simp only [Control.owed, Control.rank] <;> omega
  | bus _ hb | provider _ hb | reaper _ hb | retention _ hb =>
    rw [hc] at hb
    have hless := hb.less
    refine ⟨hc, ?_, ?_⟩ <;> simp only [Control.owed, Control.rank] <;> omega

/-- to begin a job, a draining process spends of what it owes. -/
theorem Control.Begins.less {c c' : Control C} {lane : Lane} {job : Job C}
    (hc : c.main.drain = true) (h : Control.Begins C language sent lane job c c') :
    c'.main.drain = true ∧ c'.owed < c.owed ∧ c'.rank < c.rank := by
  cases h with
  | register hs =>
    rw [hs] at hc
    cases hc
  | opens _ hs | ticks _ hs | delivers _ hs _ | reports _ hs | executes _ hs | reaps _ hs
  | sweeps _ hs =>
    refine ⟨hc, ?_, ?_⟩ <;> simp only [Control.owed, Control.rank, hs, BusStage.owed, BusStage.rank,
      ProviderStage.owed, ProviderStage.rank, TimerStage.owed, TimerStage.rank] <;> omega

theorem Control.Ends.less {c c' : Control C} {lane : Lane} {job : Job C} {r : Except Empty Finish}
    (hc : c.main.drain = true) (h : Control.Ends C lane job r c c') :
    c'.main.drain = true ∧ c'.owed ≤ c.owed ∧ c'.rank < c.rank := by
  cases h with
  | registered hs | unregistered hs =>
    rw [hs] at hc
    cases hc
  | opened hs | unopened hs | ticked hs | unticked hs | handled hs | reported hs | unreported hs
  | executed hs | reaped hs | swept hs =>
    refine ⟨hc, ?_, ?_⟩ <;> simp only [Control.owed, Control.rank, hs, BusStage.owed, BusStage.rank,
      ProviderStage.owed, ProviderStage.rank, TimerStage.owed, TimerStage.rank] <;> omega

/-! ### The end of a drain -/

/-- the process has left its loops, and no job is in progress. -/
structure Stopped (x : Site service Lane (Control C) (Job C) Empty Finish) : Prop where
  main : x.control.main = .exited
  bus : x.control.bus = .stopped
  provider : x.control.provider = .stopped
  reaper : x.control.reaper = .stopped
  retention : x.control.retention = .stopped
  jobs : ∀ lane, x.lanes lane = none

theorem question_answered (q : Question) : Nonempty q.Answer := by
  cases q with
  | moment => exact ⟨⟨0, fun _ => 0, none⟩⟩
  | resolve _ => exact ⟨.elapsed⟩
  | fetch _ _ _ => exact ⟨.elapsed⟩
  | publish _ => exact ⟨true⟩

/-- a loop whose job is in progress takes its end. -/
theorem Control.Attends.takes {c : Control C} {jobs : Lane → Option (Job C)} {lane : Lane}
    {job : Job C} (h : c.Attends jobs) (hj : jobs lane = some job) {r : Except Empty Finish}
    (hr : job.Accepts r) : ∃ c', Control.Ends C lane job r c c' := by
  cases lane with
  | main =>
    rw [h.main] at hj
    split_ifs at hj with hs
    cases hj
    obtain ⟨b, rfl⟩ := hr
    cases b with
    | true => exact ⟨_, .registered hs⟩
    | false => exact ⟨_, .unregistered hs⟩
  | bus =>
    rw [h.bus] at hj
    cases hs : c.bus with
    | opening =>
      rw [hs] at hj
      cases hj
      obtain ⟨b, rfl⟩ := hr
      cases b with
      | true => exact ⟨_, .opened hs⟩
      | false => exact ⟨_, .unopened hs⟩
    | ticking =>
      rw [hs] at hj
      cases hj
      obtain ⟨b, rfl⟩ := hr
      cases b with
      | true => exact ⟨_, .ticked hs⟩
      | false => exact ⟨_, .unticked hs⟩
    | handling message =>
      rw [hs] at hj
      cases hj
      obtain ⟨disposition, rfl⟩ := hr
      exact ⟨_, .handled hs⟩
    | reporting message disposition =>
      rw [hs] at hj
      cases hj
      obtain ⟨b, rfl⟩ := hr
      cases b with
      | true => exact ⟨_, .reported hs⟩
      | false => exact ⟨_, .unreported hs⟩
    | _ =>
      rw [hs] at hj
      cases hj
  | provider =>
    rw [h.provider] at hj
    split_ifs at hj with hs
    cases hj
    exact ⟨_, .executed hs⟩
  | reaper =>
    rcases h.reaper with ⟨hs, now, hnow⟩ | ⟨-, hnone⟩
    · cases hnow.symm.trans hj
      exact ⟨_, .reaped hs⟩
    · cases hnone.symm.trans hj
  | retention =>
    rcases h.retention with ⟨hs, now, hnow⟩ | ⟨-, hnone⟩
    · cases hnow.symm.trans hj
      exact ⟨_, .swept hs⟩
    · cases hnone.symm.trans hj

/-- stages and jobs fit together in every run of processes. -/
theorem process_attends {x : Site service Lane (Control C) (Job C) Empty Finish}
    (h : (process C config language sent).Run (firstProcess C) x) : x.control.Attends x.tasks := by
  have idle : ∀ answers : Answers C, (Control.started answers).Attends fun _ => none := fun answers =>
    ⟨rfl, rfl, rfl, .inr ⟨fun he => TimerStage.noConfusion he, rfl⟩,
      .inr ⟨fun he => TimerStage.noConfusion he, rfl⟩⟩
  refine Loops.Run.keeps (fun hJ hm => ?_) (fun hJ _ hb => ?_) (fun hJ _ he => ?_) (fun c => ?_) h
    (idle [])
  · exact Control.Attends.moves hJ hm
  · exact Control.Attends.begins hJ hb
  · exact Control.Attends.ends hJ he
  · exact idle c.answers

/-- **A draining process that cannot go on has stopped.** -/
theorem process_stopped {x : Site service Lane (Control C) (Job C) Empty Finish}
    (h : (process C config language sent).Run (firstProcess C) x)
    (hdrain : x.control.main.drain = true)
    (hrest : ∀ y, ¬ (process C config language sent).Step x y) : Stopped x := by
  have hattends := process_attends h
  have hleaves : x.Leaves Job.Accepts :=
    Loops.Run.leaves (fun job => job.body_leaves) h fun lane t p hi => by cases hi
  have hanswers : ∀ q, Nonempty (service.Answer q) := question_answered
  have hnone : ∀ lane, x.tasks lane = none := by
    intro lane
    cases hj : x.tasks lane with
    | none => rfl
    | some job =>
      obtain ⟨y, hy⟩ := Loops.goes_on (L := process C config language sent) hleaves hj
        fun r hr => hattends.takes hj hr
      exact absurd hy (hrest y)
  have hlanes : ∀ lane, x.lanes lane = none := fun lane => Option.map_eq_none_iff.mp (hnone lane)
  obtain ⟨c, l, ended, s⟩ := x
  have moved : ∀ {c'}, ¬ Control.Moves C c c' := fun hm => hrest _ (.moved hm)
  have hspawned : c.main.spawned = true := by
    revert hdrain
    cases c.main <;> first | exact fun _ => rfl | exact fun hd => Bool.noConfusion hd
  have hd : c.main.drain = true := hdrain
  refine ⟨?_, ?_, ?_, ?_, ?_, hlanes⟩
  · show c.main = .exited
    cases hs : c.main with
    | exited => rfl
    | draining => exact absurd (.left hs) moved
    | _ =>
      rw [hs] at hd
      cases hd
  · show c.bus = .stopped
    have bus : ∀ {b b'}, c.bus = b → ¬ b.Moves true b' := fun hs hb =>
      moved (.bus hspawned (by rw [hs, hd]; exact hb))
    have hidle : c.bus.job = none := hattends.bus.symm.trans (hnone .bus)
    cases hs : c.bus with
    | stopped => rfl
    | away => exact absurd (.stays_away rfl) (bus hs)
    | connecting => exact absurd .refused (bus hs)
    | listening clear => exact absurd (.stops rfl) (bus hs)
    | handled message disposition =>
      have hbegins : Control.Begins C language sent .bus .publish c _ := .reports hspawned hs
      exact absurd (Loops.Step.began .bus .publish (hlanes .bus) hbegins) (hrest _)
    | answering message disposition => exact absurd .unanswered (bus hs)
    | _ =>
      rw [hs] at hidle
      cases hidle
  · show c.provider = .stopped
    have provider : ∀ {p p'}, c.provider = p → ¬ p.Moves true p' := fun hs hp =>
      moved (.provider hspawned (by rw [hs, hd]; exact hp))
    have hidle : (if c.provider = .executing then some Job.execute else none) = none :=
      hattends.provider.symm.trans (hnone .provider)
    cases hs : c.provider with
    | stopped => rfl
    | away => exact absurd (.stays_away rfl) (provider hs)
    | connecting => exact absurd .refused (provider hs)
    | connected clear => exact absurd (.stops rfl) (provider hs)
    | executing =>
      rw [if_pos hs] at hidle
      cases hidle
  · show c.reaper = .stopped
    cases hs : c.reaper with
    | stopped => rfl
    | waiting clear => exact absurd (.reaper hspawned (by rw [hs, hd]; exact .stops rfl)) moved
    | running =>
      rcases hattends.reaper with ⟨-, now, hnow⟩ | ⟨hne, -⟩
      · cases hnow.symm.trans (hnone .reaper)
      · exact absurd hs hne
  · show c.retention = .stopped
    cases hs : c.retention with
    | stopped => rfl
    | waiting clear => exact absurd (.retention hspawned (by rw [hs, hd]; exact .stops rfl)) moved
    | running =>
      rcases hattends.retention with ⟨-, now, hnow⟩ | ⟨hne, -⟩
      · cases hnow.symm.trans (hnone .retention)
      · exact absurd hs hne

/-- **A drain ends.**  From the signal on a process begins at most five more jobs, it does not go on
forever, in whatever order its loops take their steps and whatever they are answered, and where it
cannot go on every loop has stopped with nothing in progress. -/
theorem process_drains {x : Site service Lane (Control C) (Job C) Empty Finish}
    (h : (process C config language sent).Run (firstProcess C) x)
    (hdrain : x.control.main.drain = true) :
    (∀ y, (process C config language sent).Works x y → y.begun ≤ x.begun + 5 ∧
      ((∀ z, ¬ (process C config language sent).Step y z) → Stopped y)) ∧
    ∀ run : Nat → Site service Lane (Control C) (Job C) Empty Finish, run 0 = x →
      ∃ n, ¬ (process C config language sent).Step (run n) (run (n + 1)) := by
  refine ⟨fun y hy => ?_, fun run h0 => ?_⟩
  · obtain ⟨hdrain', hle⟩ := Loops.Works.begun_le (I := fun c => c.main.drain = true) Control.owed
      (fun hc hm => ⟨(hm.less hc).1, (hm.less hc).2.1⟩)
      (fun hc hb => ⟨(hb.less hc).1, (hb.less hc).2.1⟩)
      (fun hc he => ⟨(he.less hc).1, (he.less hc).2.1⟩) hy hdrain
    refine ⟨?_, process_stopped (h.trans hy.run) hdrain'⟩
    have howed := x.control.owed_le
    omega
  · apply Loops.rests (I := fun c => c.main.drain = true) Control.rank
      (fun hc hm => ⟨(hm.less hc).1, (hm.less hc).2.2⟩)
      (fun hc hb => ⟨(hb.less hc).1, (hb.less hc).2.2⟩)
      (fun hc he => ⟨(he.less hc).1, (he.less hc).2.2⟩) run
    rw [h0]
    exact hdrain

end

/-! ## A sample -/

namespace Sample

def config : WorkerConfig := ⟨none, 10, 3600000000, 30⟩

/-- a process that is sent the messages of the sample. -/
abbrev processes : Loops service Lane (Control contracts) (Job contracts) Empty Finish :=
  process contracts config .ru (· ∈ messages)

def arriving : BrokerMessage contracts :=
  ⟨Subject.subscription.transport, packet .subscription 101 (.subscription subscribe)⟩

/-- a job from its beginning to its end. -/
def work (now : Instant) (base : Nat) (job : Job contracts) (d : Db) : Action Empty Finish × Db :=
  Prog.advance (answers now base page) 100 (job.body contracts config .ru, d)

/-- a process whose bus loop is here, the other loops where they begin. -/
def standing (bus : BusStage contracts) (told : Answers contracts) : Control contracts :=
  ⟨.serving, bus, .away, .waiting false, .waiting false, told⟩

def idle : Lane → Option (Job contracts × Action Empty Finish) := fun _ => none

/-- the process registers, connects and publishes. -/
theorem serves (told : Answers contracts) (h : List (Job contracts × Except Empty Finish)) {d : Db}
    (hreg : (work 4 400 .register d).1.answer? = some (.ok (.registered true)))
    (hpub : (work 5 500 .publish (work 4 400 .register d).2).1.answer? =
      some (.ok (.published true))) :
    processes.Works ⟨.started told, idle, h, d⟩ ⟨standing (.listening true) told, idle,
      h ++ [(.register, .ok (.registered true))] ++ [(.publish, .ok (.published true))],
      (work 5 500 .publish (work 4 400 .register d).2).2⟩ := by
  have hregister := Loops.does (L := processes) (h := h) (c := .started told)
    (answers 4 400 page) 100 (l := idle) (i := .main) rfl (.register rfl) hreg (.registered rfl)
  have hconnects := hregister.tail (.moved (.bus rfl (.connects rfl)))
  have hpublish := Loops.does (L := processes) (h := h ++ [(.register, .ok (.registered true))])
    (c := standing .connecting told) (answers 5 500 page) 100 (l := idle) (i := .bus) rfl
    (.opens rfl rfl) hpub (.opened rfl)
  exact (hconnects.trans hpublish).tail (.moved (.bus rfl (.clears rfl)))

/-- the first process handles a message, and ends before the outbox is published. -/
def firstHandled : Db := (work 6 600 (.deliver arriving) (work 5 500 .publish
  (work 4 400 .register Db.empty).2).2).2

/-- the second process begins by publishing what is left. -/
def resumed : Db := (work 5 500 .publish (work 4 400 .register firstHandled).2).2

/-- the message comes once more. -/
def secondHandled : Db := (work 6 600 (.deliver arriving) resumed).2

def reported : Db := (work 7 700 .publish secondHandled).2

/-- what has ended in both processes. -/
def both : List (Job contracts × Except Empty Finish) :=
  [(.register, .ok (.registered true)), (.publish, .ok (.published true)),
    (.deliver arriving, .ok (.handled .ack)), (.register, .ok (.registered true)),
    (.publish, .ok (.published true)), (.deliver arriving, .ok (.handled .ack)),
    (.publish, .ok (.published true))]

/-- the broker is told by the second process, which then drains. -/
def told : Site service Lane (Control contracts) (Job contracts) Empty Finish :=
  ⟨{ standing (.listening false) [(arriving, .ack)] with main := .draining }, idle, both, reported⟩

theorem told_reached : processes.Run (firstProcess contracts) told := by
  have hsent : ∀ m, received contracts .ru arriving.subject arriving.payload = some m →
      m ∈ messages := by
    rintro _ ⟨⟩
    simp [messages]
  have hserves := serves [] [] (d := Db.empty) (by decide +kernel) (by decide +kernel)
  have hhandles := Loops.does (L := processes) (h := both.take 2)
    (c := standing (.listening true) [])
    (s := (work 5 500 .publish (work 4 400 .register Db.empty).2).2) (answers 6 600 page) 100
    (l := idle) (i := .bus) rfl (.delivers rfl rfl hsent) (r := .ok (.handled .ack))
    (by decide +kernel) (.handled rfl)
  have hagain : processes.Run (firstProcess contracts)
      ⟨.started [], idle, both.take 3, firstHandled⟩ :=
    (Loops.Works.run (hserves.trans hhandles)).tail (.inr rfl)
  have hserves' := serves [] (both.take 3) (d := firstHandled) (by decide +kernel)
    (by decide +kernel)
  have hhandles' := Loops.does (L := processes) (h := both.take 5)
    (c := standing (.listening true) []) (s := resumed) (answers 6 600 page) 100 (l := idle)
    (i := .bus) rfl (.delivers rfl rfl hsent) (r := .ok (.handled .ack)) (by decide +kernel)
    (.handled rfl)
  have hpublishes := Loops.does (L := processes) (h := both.take 6)
    (c := standing (.handled arriving .ack) []) (s := secondHandled) (answers 7 700 page) 100
    (l := idle) (i := .bus) rfl (.reports rfl rfl) (r := .ok (.published true)) (by decide +kernel)
    (.reported rfl)
  have hworks := (hserves'.trans (hhandles'.trans hpublishes)).tail
    (.moved (.answered rfl rfl (.inl rfl)))
  exact hagain.trans (Loops.Works.run (hworks.tail (.moved (.signalled rfl))))

end Sample

/-- the message that came to both processes is in the inbox once, and its report was published. -/
theorem restarted_reachable : Reachable Sample.contracts (.single .ru (· ∈ Sample.messages))
      Sample.told.state ∧
    Sample.told.state.inbox.length = 1 ∧
    Sample.told.state.outbox.map (·.publishedAt.isSome) = [true] :=
  ⟨process_reachable Sample.told_reached, by decide +kernel, by decide +kernel⟩

theorem restarted_answers : Reported Sample.both Sample.arriving .ack ∧
    Sample.told.state.Done Sample.contracts (.command (.subscription 101 Sample.subscribe)) := by
  have hids : MessageIds (Sample.setting .one True).sent := Sample.setting_ids
  have htold : (Sample.arriving, DeliveryDisposition.ack) ∈ Sample.told.control.answers :=
    List.mem_singleton.mpr rfl
  obtain ⟨hreported, hdone⟩ := process_answers hids Sample.told_reached htold
  exact ⟨hreported, hdone _ (by rfl) rfl⟩

theorem restarted_drains : Sample.told.control.main.drain = true ∧
    (∀ y, Sample.processes.Works Sample.told y → y.begun ≤ 12 ∧
      ((∀ z, ¬ Sample.processes.Step y z) → Stopped y)) ∧
    ∀ run : Nat → Site service Lane (Control Sample.contracts) (Job Sample.contracts) Empty Finish,
      run 0 = Sample.told → ∃ n, ¬ Sample.processes.Step (run n) (run (n + 1)) :=
  ⟨rfl, process_drains Sample.told_reached rfl⟩

end ChannelDigests
