import ChannelDigests.Coordinator

/-!
# The deadline reaper

`Reaper::reap_once` fails the runs that were last updated before `now` less the deadline, at most
`reaperBatch` of them, and reports each of them that an operation owns.
-/

namespace ChannelDigests
open Lib

inductive ReaperError where
  | storage
  deriving DecidableEq

instance : FromReportError ReaperError where
  ofReport _ := .storage

/-- most runs of one reaper tick. -/
def reaperBatch : Nat := 100

/-- `state in ('accepted', 'acquiring', 'waiting_recap')`. -/
def RunState.open : RunState → Bool
  | .accepted | .acquiring | .waitingRecap => true
  | _ => false

/-- the runs that one tick fails, oldest update first. -/
def Db.overdueRuns (d : Db) (cutoff : Instant) : List Run :=
  ((d.runs.filter fun r => r.state.open && decide (r.updatedAt < cutoff)).insertionSort
    fun a b => toLex (a.updatedAt, a.runId) ≤ toLex (b.updatedAt, b.runId)).take reaperBatch

/-- `update … returning`: the reaped rows. -/
def reapRuns (cutoff now : Instant) : Sql ReaperError (List Run) :=
  .change .storage
    (fun d => { d with
      runs := updateWhere (fun r => ((d.overdueRuns cutoff).map (·.runId)).contains r.runId)
        (Run.fail "deadline_exceeded" now) d.runs })
    fun d => d.runs.filter fun r => ((d.overdueRuns cutoff).map (·.runId)).contains r.runId

variable (C : Contracts)

/-- the report of a reaped run. -/
def deadlineReport (run : Run) : OperationReportRow :=
  (OperationReportRow.new run.operationId run.ownerId .failed "deadline").withError
    "channel_digest.run_deadline_exceeded" "The digest did not finish before its deadline." true

/-- a report for a reaped run that an operation owns. -/
def reportDeadline (m : Moment) (run : Run) (n : Nat) : Sql ReaperError Unit :=
  if run.trigger = .onDemand then (deadlineReport run).enqueue C (m.ids n) m.now
  else pure ()

/-- the loop over the reaped runs; fresh identities are taken from `n` on. -/
def reportReaped (m : Moment) : List Run → Nat → Sql ReaperError Unit
  | [], _ => pure ()
  | run :: runs, n => do
    reportDeadline C m run n
    reportReaped m runs (n + 1)

def reapTx (cutoff : Instant) (m : Moment) : Sql ReaperError (Fate Nat) := do
  .mark .storage ()
  let reaped ← reapRuns cutoff m.now
  reportReaped C m reaped 0
  .commit .storage reaped.length

/-- `Reaper::reap_once`; the deadline is in microseconds. -/
def reapOnce (deadline : Int) (now : Instant) : Action ReaperError Nat :=
  transaction (reapTx C (now - deadline))

end ChannelDigests
