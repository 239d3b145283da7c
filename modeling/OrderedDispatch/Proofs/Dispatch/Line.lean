/-
**The sink sees one line of outputs.**

If the work of an item is the same on every thread, then whatever the interleaving, the sink has
received exactly the outputs of the items that are retired, one after the other in the order of
their numbers.  Nothing in a dispatch poisons a mutex: the work and the calls of the sink run where
their panics are caught.  So what came of each item is what came of its output in the line.

Main definitions:

* `Job.Uniform`, `Job.outputs` — the work does not depend on the thread, and what it writes;
* `Dispatch.Unpoisoned` — no mutex is poisoned, and no call at the gate has met a poisoned one;
* `Dispatch.InLine` — the sink has received the outputs of the items retired, and no more;
* `Dispatch.Drained` — all items have been claimed if a worker has exited.

Main results:

* `Dispatch.Reachable.unpoisoned` — no mutex is ever poisoned;
* `Dispatch.Reachable.inLine` — **the sink has received the outputs of the items retired, in line**;
* `Dispatch.Reachable.noneLeft` — a worker exits only when all items have been claimed.
-/

import OrderedDispatch.Proofs.Dispatch.Follows
import OrderedDispatch.Proofs.Sink.Series

set_option relaxedAutoImplicit false
set_option autoImplicit false

namespace OrderedDispatch

variable {σ : Type} {job : Job σ} {sink : σ}

/-- The work of an item is the same on every thread. -/
def Job.Uniform (job : Job σ) : Prop :=
  ∀ t < job.threads, ∀ i < job.items, job.work t i = job.work 0 i

/-- What the items below a number write, in order. -/
def Job.outputs (job : Job σ) (n : Nat) : List (List UInt8) :=
  (List.range n).map fun i => (job.work 0 i).output

theorem Job.outputs_succ (job : Job σ) (n : Nat) :
    job.outputs (n + 1) = job.outputs n ++ [(job.work 0 n).output] := by
  simp [Job.outputs, List.range_succ]

theorem Job.outputs_prefix (job : Job σ) {m n : Nat} (h : m ≤ n) :
    job.outputs m <+: job.outputs n := by
  obtain ⟨k, rfl⟩ := Nat.exists_eq_add_of_le h
  rw [Job.outputs, Job.outputs, List.range_add, List.map_append]
  exact List.prefix_append _ _

namespace Phase

/-- The fault that a call at the gate has met so far. -/
def carried? : Phase → Option Fault
  | retiring _ _ _ (.holding fault) => fault
  | retiring _ _ _ (.asleep fault) => fault
  | retiring _ _ _ (.woken fault) => fault
  | _ => none

theorem notified_carried? (p : Phase) : p.notified.carried? = p.carried? := by
  cases p with
  | retiring item output ending call => cases call <;> rfl
  | _ => rfl

theorem notified_eq_exited_iff (p : Phase) : p.notified = .exited ↔ p = .exited := by
  cases p <;> simp [notified]

end Phase

namespace Dispatch

/-! ### No mutex is poisoned -/

/-- No mutex is poisoned, and no call at the gate has met a poisoned one. -/
structure Unpoisoned (d : Dispatch σ) : Prop where
  take : d.take.poisoned = false
  gate : d.gate.poisoned = false
  carried : ∀ t, d.at? Phase.carried? t = none

namespace Unpoisoned

variable {d d' : Dispatch σ}

/-- A claim meets no poisoned mutex. -/
theorem offer_fault (h : Unpoisoned d) : d.take.offer.fault = none := by
  simp [TakeCursor.offer, h.take]

/-- A call at the gate meets no poisoned mutex. -/
theorem poisonFault (h : Unpoisoned d) : d.gate.poisonFault = none := by
  simp [Gate.poisonFault, h.gate]

/-- A call at the gate has not met a poisoned mutex before. -/
theorem carried_of (h : Unpoisoned d) {t : Nat} {w : Worker} (hw : d.workers[t]? = some w) :
    w.phase.carried? = none := by
  have := h.carried t
  rwa [Dispatch.at?, hw] at this

/-- A turn that poisons nothing, after which its worker carries no fault. -/
theorem turn (h : Unpoisoned d) {t : Nat} {w w' : Worker} {es : List Entry} {wakes : Bool}
    (turn : Turn d d' t w w' es wakes) (htake : d'.take.poisoned = false)
    (hgate : d'.gate.poisoned = false) (hw' : w'.phase.carried? = none) : Unpoisoned d' where
  take := htake
  gate := hgate
  carried := by
    intro u
    rw [turn.at? Phase.notified_carried?]
    split
    · exact hw'
    · exact h.carried u

theorem between {m : Move} (h : Unpoisoned d) (hs : Interim d d' m) : Unpoisoned d' := by
  cases hs with
  | begun turn same =>
      exact h.turn turn (by rw [same.take, h.take]) (by rw [same.gate, h.gate]) rfl
  | exited turn noneLeft moved =>
      exact h.turn turn (by rw [moved.take]; rfl) (by rw [moved.gate, h.gate]) rfl
  | worked turn effect allowed same =>
      exact h.turn turn (by rw [same.take, h.take]) (by rw [same.gate, h.gate]) rfl
  | arrived turn free moved =>
      exact h.turn turn (by rw [moved.take, h.take]) (by rw [moved.gate]; rfl) h.poisonFault
  | resumed turn free moved =>
      obtain rfl : _ = none := h.carried_of turn.before
      exact h.turn turn (by rw [moved.take, h.take]) (by rw [moved.gate]; rfl) h.poisonFault
  | slept turn notNext moved =>
      have hcarried := h.carried_of turn.before
      exact h.turn turn (by rw [moved.take, h.take]) (by rw [moved.gate]; exact h.gate) hcarried
  | woken turn same =>
      have hcarried := h.carried_of turn.before
      exact h.turn turn (by rw [same.take, h.take]) (by rw [same.gate, h.gate]) hcarried

end Unpoisoned

/-- **No mutex is ever poisoned.** -/
theorem Reachable.unpoisoned {d : Dispatch σ} (h : Reachable job sink d) : Unpoisoned d := by
  refine h.invariant ⟨rfl, rfl, fun t => ?_⟩ ?_
  · refine Option.eq_none_iff_forall_ne_some.2 fun fault hfault => ?_
    obtain ⟨w, hw, hcarried⟩ := at?_eq_some.1 hfault
    obtain rfl := List.eq_of_mem_replicate (List.mem_of_getElem? hw)
    cases hcarried
  · intro e e' m _ he hc
    cases hc with
    | between interim => exact he.between interim
    | claimed turn opened someLeft moved =>
        exact he.turn turn (by rw [moved.take]; rfl) (by rw [moved.gate, he.gate]) rfl
    | finished turn ends take gate ended =>
        exact he.turn turn (by rw [take, he.take]) (by rw [gate, he.gate]) rfl
    | retired turn first moved =>
        refine he.turn turn (by rw [moved.take, he.take]) (by rw [moved.gate]; exact he.gate) ?_
        dsimp only
        split <;> rfl

/-! ### The line of outputs -/

/-- The sink has received the outputs of the items that are retired, one after the other, and no
more. -/
structure InLine (job : Job σ) (sink : σ) (d : Dispatch σ) : Prop where
  state : d.gate.sink = (job.sink.series sink (job.outputs d.gate.next)).state
  calls : d.calls = (job.sink.series sink (job.outputs d.gate.next)).calls
  faults : d.retirements.map Prod.snd = (job.sink.series sink (job.outputs d.gate.next)).faults

namespace InLine

variable {d d' : Dispatch σ}

/-- A step that leaves the gate, the calls and the retirements alone. -/
theorem keep (h : InLine job sink d) {sessions : List Session} {endings : List (Nat × Ending)}
    (adds : Adds d d' [] sessions endings []) (hnext : d'.gate.next = d.gate.next)
    (hsink : d'.gate.sink = d.gate.sink) : InLine job sink d' where
  state := by rw [hsink, hnext, h.state]
  calls := by rw [adds.calls, hnext, h.calls, List.append_nil]
  faults := by rw [adds.retirements, hnext, List.append_nil, h.faults]

/-- A retirement adds the output of its item to the line. -/
theorem retired (h : InLine job sink d) {output : List UInt8} {fault : Option Fault}
    (adds : Adds d d' (job.sink.retire d.gate.sink output).calls [] [] [(d.gate.next, fault)])
    (houtput : output = (job.work 0 d.gate.next).output)
    (hfault : fault = (job.sink.retire d.gate.sink output).fault)
    (hnext : d'.gate.next = d.gate.next + 1)
    (hsink : d'.gate.sink = (job.sink.retire d.gate.sink output).state) : InLine job sink d' := by
  have hseries := Sink.series_concat job.sink sink (job.outputs d.gate.next) output
  rw [← h.state, houtput, ← Job.outputs_succ, ← hnext, ← houtput] at hseries
  constructor
  · rw [hseries, hsink]
  · rw [hseries, adds.calls, h.calls]
  · rw [hseries, adds.retirements, List.map_append, h.faults, hfault]
    rfl

end InLine

/-- **The sink has received the outputs of the items retired, in line**, whatever the
interleaving. -/
theorem Reachable.inLine {d : Dispatch σ} (h : Reachable job sink d) (huniform : job.Uniform) :
    InLine job sink d := by
  refine h.invariant ⟨rfl, rfl, rfl⟩ ?_
  intro e e' m hreach he hc
  cases hc with
  | between interim =>
      have hs := interim.unmoved
      exact he.keep hs.adds hs.next hs.sink
  | claimed turn opened someLeft moved =>
      exact he.keep turn.adds_of_claim (by rw [moved.gate]) (by rw [moved.gate])
  | finished turn ends take gate ended =>
      exact he.keep turn.adds_of_end (by rw [gate]) (by rw [gate])
  | @retired t failed output ending carried fault turn first moved =>
      have ht : t < job.threads := hreach.length_workers ▸ turn.lt_length
      have hheld := hreach.window.within (at?_eq_some.2 ⟨_, turn.before, rfl⟩)
      have hlt := Nat.lt_of_lt_of_le hheld.2 hreach.window.bounded
      have hparcel := (hreach.follows t _ turn.before).2 _ rfl
      -- the fault is that of the sink, for the worker met none on its way
      obtain rfl : carried = none := hreach.unpoisoned.carried_of turn.before
      refine he.retired turn.adds_of_retire ?_ first (by rw [moved.gate]) (by rw [moved.gate])
      rw [← huniform t ht _ hlt]
      exact congrArg Parcel.output hparcel

/-! ### When workers exit -/

/-- All items have been claimed if a worker has exited. -/
def Drained (job : Job σ) (d : Dispatch σ) : Prop :=
  ∀ (t : Nat) (w : Worker), d.workers[t]? = some w → w.phase = .exited → job.items ≤ d.take.next

/-- A turn after which its worker has exited only if all items have been claimed. -/
theorem Drained.turn {d d' : Dispatch σ} (h : Drained job d) {t : Nat} {w w' : Worker}
    {es : List Entry} {wakes : Bool} (turn : Turn d d' t w w' es wakes)
    (hmono : d.take.next ≤ d'.take.next) (hw' : w'.phase = .exited → job.items ≤ d'.take.next) :
    Drained job d' := by
  refine turn.forall_workers hw' (fun _ u v _ hv hexited => ?_) (fun _ u v _ hv hexited => ?_)
  · exact Nat.le_trans (h u v hv hexited) hmono
  · exact Nat.le_trans (h u v hv ((Phase.notified_eq_exited_iff v.phase).1 hexited)) hmono

theorem Reachable.drained {d : Dispatch σ} (h : Reachable job sink d) : Drained job d := by
  refine h.invariant (fun t w hw hexited => ?_) ?_
  · obtain rfl := List.eq_of_mem_replicate (List.mem_of_getElem? hw)
    cases hexited
  · intro e e' m hreach he hc
    cases hc with
    | between interim =>
        have hmono := Nat.le_of_eq interim.counters.1.symm
        cases interim with
        | begun turn same => exact he.turn turn hmono (by simp)
        | exited turn noneLeft moved =>
            refine he.turn turn hmono fun _ => Nat.le_trans ?_ hmono
            rw [← hreach.limit]
            exact noneLeft
        | worked turn effect allowed same => exact he.turn turn hmono (by simp)
        | arrived turn free moved => exact he.turn turn hmono (by simp)
        | resumed turn free moved => exact he.turn turn hmono (by simp)
        | slept turn notNext moved => exact he.turn turn hmono (by simp)
        | woken turn same => exact he.turn turn hmono (by simp)
    | claimed turn opened someLeft moved =>
        refine he.turn turn ?_ (by simp)
        rw [moved.next someLeft]
        exact Nat.le_succ _
    | finished turn ends take gate ended => exact he.turn turn (by rw [take]) (by simp)
    | retired turn first moved =>
        refine he.turn turn (by rw [moved.take]) fun hexited => ?_
        dsimp only at hexited
        split at hexited <;> cases hexited

/-- **A worker exits only when all items have been claimed.** -/
theorem Reachable.noneLeft {d : Dispatch σ} (h : Reachable job sink d) {t : Nat} {w : Worker}
    (hw : d.workers[t]? = some w) (hexited : w.phase = .exited) : d.take.next = job.items :=
  Nat.le_antisymm h.window.bounded (h.drained t w hw hexited)

/-- When a dispatch is over, no item is in flight. -/
theorem Reachable.next_eq_taken {d : Dispatch σ} (h : Reachable job sink d)
    (hover : d.isOver = true) : d.gate.next = d.take.next := by
  refine Nat.le_antisymm h.window.ordered (Nat.le_of_not_lt fun hlt => ?_)
  obtain ⟨t, ht⟩ := h.window.holder (Nat.le_refl _) hlt
  obtain ⟨w, hw, hitem⟩ := at?_eq_some.1 ht
  rw [Phase.item?_of_isFinal (List.all_eq_true.1 hover w (List.mem_of_getElem? hw))] at hitem
  cases hitem

end Dispatch

end OrderedDispatch
