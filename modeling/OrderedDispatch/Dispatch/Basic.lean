/-
**A dispatch as a machine.**

A dispatch runs the items `0, …, N - 1` on `T` workers.  Each worker claims an item, runs its work
in a session of its own, closes the session, retires the output through the gate and claims again,
until no item is left.  Faults are kept in one flag for each worker.  A worker whose item ended by a
killing panic retires that item like any other and dies afterwards.

At any moment one worker takes its next step, or a sleeping one wakes for no reason; everything that
happened is kept in the history.

Main definitions:

* `Job` — what a dispatch is asked to do;
* `Phase`, `Worker`, `Dispatch` — where a worker stands, and the state of a dispatch;
* `Entry` — what the history holds;
* `Dispatch.Move`, `Dispatch.step?`, `Dispatch.run?` — what may happen, and any interleaving of it;
* `Dispatch.isOver` — every worker has exited or died.
-/

import OrderedDispatch.Dispatch.Work
import OrderedDispatch.Gate.Basic
import OrderedDispatch.TakeCursor

set_option relaxedAutoImplicit false
set_option autoImplicit false

namespace OrderedDispatch

/-- What a dispatch is asked to do. -/
structure Job (σ : Type) where
  /-- the number of items -/
  items : Nat
  /-- the number of workers -/
  threads : Nat
  /-- the flags of every session -/
  settings : Settings := {}
  /-- the work of an item on a thread -/
  work : (thread item : Nat) → Script
  /-- where the output goes -/
  sink : Sink σ

/-- Where a worker stands.  It has been created; it is about to claim an item; it runs the work of
the session's item; it is at the retire gate with the output of an item; it has found no more items;
or the panic of its last item has killed it. -/
inductive Phase where
  | starting
  | claiming
  | working (session : Session) (todo : Script) (output : List UInt8)
  | retiring (item : Nat) (output : List UInt8) (ending : Ending) (call : CallPhase)
  | exited
  | dead
  deriving DecidableEq, Inhabited

namespace Phase

/-- Whether the worker will take no further step. -/
def isFinal : Phase → Bool
  | exited | dead => true
  | _ => false

/-- The item that the worker holds. -/
def item? : Phase → Option Nat
  | working session _ _ => some session.item
  | retiring item _ _ _ => some item
  | _ => none

/-- The phase after all sleepers have been woken. -/
def notified : Phase → Phase
  | retiring item output ending call => retiring item output ending call.notified
  | phase => phase

end Phase

/-- A worker: where it stands, and whether it has met a fault. -/
structure Worker where
  phase : Phase := .starting
  failed : Bool := false
  deriving DecidableEq, Inhabited

/-- The worker after all sleepers have been woken. -/
def Worker.notified (w : Worker) : Worker := { w with phase := w.phase.notified }

/-- What the history of a dispatch holds: what was logged, inside of the session with a label or
outside of any; the sessions opened; the items whose work ended; the hooks that ran; the calls that
the sink received; and the items retired, each with its fault if any. -/
inductive Entry where
  | logged (session : Option String) (event : Event)
  | opened (session : Session)
  | ended (item : Nat) (ending : Ending)
  | hookRan (item : Nat) (label : String)
  | called (call : SinkCall)
  | retired (item : Nat) (fault : Option Fault)
  deriving DecidableEq, Inhabited

/-- The state of a dispatch. -/
structure Dispatch (σ : Type) where
  take : TakeCursor
  gate : Gate σ
  /-- the items whose work has ended, the latest first -/
  ended : List Nat := []
  workers : List Worker
  /-- what has happened, the latest first -/
  reversedHistory : List Entry := []

namespace Dispatch

variable {σ : Type}

/-- A dispatch whose workers have been created and have done nothing. -/
def start (job : Job σ) (sink : σ) : Dispatch σ where
  take := { limit := job.items }
  gate := { sink := sink }
  workers := List.replicate job.threads {}

/-- What has happened, in order. -/
def history (d : Dispatch σ) : List Entry := d.reversedHistory.reverse

/-- A dispatch in which more has happened. -/
def record (d : Dispatch σ) (entries : List Entry) : Dispatch σ :=
  { d with reversedHistory := entries.reverse ++ d.reversedHistory }

/-- A dispatch in which a worker stands elsewhere. -/
def withWorker (d : Dispatch σ) (thread : Nat) (w : Worker) : Dispatch σ :=
  { d with workers := d.workers.set thread w }

/-- Events logged outside of any session. -/
def outside (events : List Event) : List Entry := events.map (Entry.logged none)

/-- Events logged inside a session. -/
def inside (s : Session) (events : List Event) : List Entry :=
  events.map (Entry.logged (some s.identifier))

/-! ### The steps of a worker -/

/-- The worker begins. -/
def begin (d : Dispatch σ) (thread : Nat) (w : Worker) : Dispatch σ :=
  (d.record (outside [.starting thread])).withWorker thread { w with phase := .claiming }

/-- The events of a claim's fault. -/
def claimFaultEvents (thread : Nat) (fault : Option Fault) : List Event :=
  fault.toList.map (Event.claimFault thread)

/-- The worker claims an item and opens a session for it, or finds that no item is left. -/
def claim (job : Job σ) (d : Dispatch σ) (thread : Nat) (w : Worker) : Dispatch σ :=
  let offer := d.take.offer
  let failed := w.failed || offer.fault.isSome
  let d' := { d with take := d.take.claimed }.record
    (outside (d.take.claimEvents ++ claimFaultEvents thread offer.fault))
  match offer.index with
  | none =>
      (d'.record (outside [.exiting thread failed])).withWorker thread ⟨.exited, failed⟩
  | some item =>
      let session : Session := { thread, item, settings := job.settings }
      (d'.record (outside [.taking thread item]
        ++ inside session (Session.openingEvents job.settings) ++ [.opened session])).withWorker
          thread ⟨.working session (job.work thread item) [], failed⟩

/-- The work of the worker's item ends: the session is closed, the ending is logged, and the worker
goes to the retire gate. -/
def endWork (d : Dispatch σ) (thread : Nat) (w : Worker) (session : Session)
    (output : List UInt8) (ending : Ending) : Dispatch σ :=
  let closing := session.hooksInOrder.flatMap fun h =>
    .hookRan session.item h.label :: inside session (Session.hookEvents h)
  ({ d with ended := session.item :: d.ended }.record
    (Entry.ended session.item ending :: closing
      ++ inside session (Session.closingEvents session.settings)
      ++ outside (ending.events thread session.item))).withWorker thread
        ⟨.retiring session.item output ending .arriving, w.failed || ending.isFault⟩

/-- The next step of the work of the worker's item, `none` while it waits for other items. -/
def workStep? (d : Dispatch σ) (thread : Nat) (w : Worker) (session : Session)
    (output : List UInt8) : Script → Option (Dispatch σ)
  | [] => some (d.endWork thread w session output .succeeded)
  | .fail message :: _ => some (d.endWork thread w session output (.failed message))
  | .panic :: _ => some (d.endWork thread w session output .panicked)
  | .kill :: _ => some (d.endWork thread w session output .killed)
  | .write bytes :: rest =>
      some (d.withWorker thread { w with phase := .working session rest (output ++ bytes) })
  | .note event :: rest =>
      some ((d.record (inside session [event])).withWorker thread
        { w with phase := .working session rest output })
  | .hook h :: rest =>
      some (d.withWorker thread { w with phase := .working (session.onClose h) rest output })
  | .allStarted :: rest =>
      if d.take.limit ≤ d.take.next then
        some (d.withWorker thread { w with phase := .working session rest output })
      else none
  | .ended item :: rest =>
      if d.take.limit ≤ item ∨ item ∈ d.ended then
        some (d.withWorker thread { w with phase := .working session rest output })
      else none

/-- The worker after its item has been retired with this fault. -/
def afterRetiring (w : Worker) (ending : Ending) (fault : Option Fault) : Worker where
  phase := if ending.isFatal then .dead else .claiming
  failed := w.failed || fault.isSome

/-- The next step of the worker at the retire gate, `none` while it has to wait. -/
def retireStep? (job : Job σ) (d : Dispatch σ) (thread : Nat) (w : Worker) (item : Nat)
    (output : List UInt8) (ending : Ending) (call : CallPhase) : Option (Dispatch σ) :=
  (d.gate.advance? job.sink thread item output call).map fun s =>
    let entries := outside s.events ++ s.calls.map Entry.called
    match s.phase with
    | .done fault =>
        let d' := ({ d with gate := s.gate }.record (entries ++ Entry.retired item fault ::
          outside (fault.toList.map (Event.retireFault thread item)))).withWorker thread
            (afterRetiring w ending fault)
        { d' with
          workers := if s.wakesAll then d'.workers.map Worker.notified else d'.workers }
    | phase =>
        ({ d with gate := s.gate }.record entries).withWorker thread
          { w with phase := .retiring item output ending phase }

/-- The next step of a worker, `none` while it has to wait and when it has exited or died. -/
def advance? (job : Job σ) (d : Dispatch σ) (thread : Nat) (w : Worker) : Option (Dispatch σ) :=
  match w.phase with
  | .starting => some (d.begin thread w)
  | .claiming => some (d.claim job thread w)
  | .working session todo output => d.workStep? thread w session output todo
  | .retiring item output ending call => d.retireStep? job thread w item output ending call
  | .exited => none
  | .dead => none

/-! ### Interleavings -/

/-- What may happen next: a worker takes its next step, or one that sleeps at the gate wakes for no
reason. -/
inductive Move where
  | advance (thread : Nat)
  | wake (thread : Nat)
  deriving DecidableEq, Inhabited

/-- The dispatch after what may happen next, `none` where it cannot happen. -/
def step? (job : Job σ) (d : Dispatch σ) : Move → Option (Dispatch σ)
  | .advance thread => (d.workers[thread]?).bind (d.advance? job thread)
  | .wake thread =>
      (d.workers[thread]?).bind fun w =>
        match w.phase with
        | .retiring _ _ _ (.asleep _) => some (d.withWorker thread w.notified)
        | _ => none

/-- Any sequence of moves. -/
def run? (job : Job σ) : Dispatch σ → List Move → Option (Dispatch σ)
  | d, [] => some d
  | d, m :: rest => (d.step? job m).bind fun d' => run? job d' rest

/-- Whether every worker has exited or died. -/
def isOver (d : Dispatch σ) : Bool := d.workers.all fun w => w.phase.isFinal

/-! ### Views of the history -/

/-- The calls that the sink has received, in order. -/
def calls (d : Dispatch σ) : List SinkCall :=
  d.history.filterMap fun e => match e with
    | .called call => some call
    | _ => none

/-- The sessions opened, in order: one for each item executed. -/
def sessions (d : Dispatch σ) : List Session :=
  d.history.filterMap fun e => match e with
    | .opened session => some session
    | _ => none

/-- The items whose work has begun, in order. -/
def executed (d : Dispatch σ) : List Nat := d.sessions.map Session.item

/-- How the work of each item ended, in order. -/
def endings (d : Dispatch σ) : List (Nat × Ending) :=
  d.history.filterMap fun e => match e with
    | .ended item ending => some (item, ending)
    | _ => none

/-- The hooks that ran, in order, each with its item. -/
def hooksRun (d : Dispatch σ) : List (Nat × String) :=
  d.history.filterMap fun e => match e with
    | .hookRan item label => some (item, label)
    | _ => none

/-- The items retired, in order, each with its fault if any. -/
def retirements (d : Dispatch σ) : List (Nat × Option Fault) :=
  d.history.filterMap fun e => match e with
    | .retired item fault => some (item, fault)
    | _ => none

/-- What was logged, in order, each event with the label of the session it was logged in. -/
def log (d : Dispatch σ) : List (Option String × Event) :=
  d.history.filterMap fun e => match e with
    | .logged session event => some (session, event)
    | _ => none

end Dispatch

end OrderedDispatch
