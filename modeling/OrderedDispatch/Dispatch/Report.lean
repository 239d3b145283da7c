/-
**What a dispatch reports.**

The dispatching thread waits for its workers in the order of their numbers.  A worker that met a
fault is counted as failed, one that died as not joined, and a dispatch succeeds if no worker is
counted.

Main definitions:

* `Report`, `Report.ofDispatch`, `Report.isSuccess`, `Report.exitCode` — the four numbers, and what
  they come to;
* `Report.events` — what is logged at the end;
* `Pool`, `Pool.run` — the settings of a dispatcher, and a whole dispatch with them.

Main results:

* `Pool.run_zero` — without items nothing is started.
-/

import OrderedDispatch.Dispatch.Schedule
import OrderedDispatch.Sizing

set_option relaxedAutoImplicit false
set_option autoImplicit false

namespace OrderedDispatch

/-- The summary of a dispatch. -/
structure Report where
  /-- the number of items -/
  items : Nat := 0
  /-- the number of workers started -/
  threads : Nat := 0
  /-- the workers that met a fault and exited -/
  failedThreads : Nat := 0
  /-- the workers that died -/
  joinFailures : Nat := 0
  deriving DecidableEq, Inhabited

/-- Whether a worker met a fault and exited. -/
def Worker.hasFailed (w : Worker) : Bool := w.phase = .exited && w.failed

/-- Whether a worker died. -/
def Worker.hasDied (w : Worker) : Bool := w.phase = .dead

namespace Report

variable {σ : Type}

/-- The summary of a dispatch that is over. -/
def ofDispatch (job : Job σ) (d : Dispatch σ) : Report where
  items := job.items
  threads := job.threads
  failedThreads := d.workers.countP Worker.hasFailed
  joinFailures := d.workers.countP Worker.hasDied

/-- Whether no worker failed or died. -/
def isSuccess (r : Report) : Bool := r.failedThreads = 0 && r.joinFailures = 0

/-- The outcome in one word. -/
def outcome (r : Report) : String := if r.isSuccess then "Success" else "Failure"

/-- The exit status that the outcome stands for. -/
def exitCode (r : Report) : Nat := if r.isSuccess then 0 else 1

/-- What the dispatching thread logs as it waits for its workers. -/
def joinEvents (workers : List Worker) : List Event :=
  (List.range workers.length).filterMap fun t =>
    if (workers[t]?.map Worker.hasDied).getD false then some (.notJoined t) else none

/-- What the dispatching thread logs as it waits for its workers, and after that. -/
def events (r : Report) (workers : List Worker) : List Event :=
  joinEvents workers ++ [if r.isSuccess then .dispatched r.items r.threads
    else .finishedWithFaults r.failedThreads r.joinFailures]

end Report

/-- The settings of a dispatcher. -/
structure Pool where
  /-- how the number of workers is chosen -/
  sizing : Sizing.Policy := {}
  /-- the flags of every session -/
  settings : Settings := {}
  deriving DecidableEq, Inhabited

/-- A whole dispatch: its summary, everything that was logged with the session it was logged in,
and the state in which the workers left it. -/
structure Performance (σ : Type) where
  report : Report
  log : List (Option String × Event)
  final : Dispatch σ

namespace Pool

variable {σ : Type}

/-- The job that the settings make of a number of items, when so much memory is free. -/
def job (p : Pool) (available items : Nat) (work : (thread item : Nat) → Script) (sink : Sink σ) :
    Job σ where
  items := items
  threads := p.sizing.threadCount available items
  settings := p.settings
  work := work
  sink := sink

/-- Runs the work of every item below a number and retires the outputs into a sink. -/
def run (p : Pool) (available items : Nat) (work : (thread item : Nat) → Script) (sink : Sink σ)
    (s : σ) : Performance σ :=
  let job := p.job available items work sink
  if items = 0 then ⟨{}, [], Dispatch.start job s⟩
  else
    let final := (Dispatch.start job s).settle job
    let report := Report.ofDispatch job final
    { report := report
      log := (p.sizing.events available items ++ [Event.creating job.threads items]).map (none, ·)
        ++ final.log ++ (report.events final.workers).map (none, ·)
      final := final }

/-- Without items no worker is started and nothing is logged. -/
theorem run_zero (p : Pool) (available : Nat) (work : (thread item : Nat) → Script)
    (sink : Sink σ) (s : σ) :
    (p.run available 0 work sink s).report = {} ∧ (p.run available 0 work sink s).log = [] := by
  simp [run]

end Pool

end OrderedDispatch
