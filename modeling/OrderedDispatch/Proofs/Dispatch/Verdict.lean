/-
**Flags and the report.**

Each worker keeps one flag for all the faults that it meets, and the report counts flags and deaths,
not faults.  A worker dies only with its flag raised, for it has raised it when the work of the
fatal item ended.  So every flag is reported once, as a failure or as a death, and a dispatch
succeeds exactly if no flag is raised.

Main definitions:

* `Dispatch.Flagged`, `Dispatch.Faulty` — some worker has its flag raised, and something in the
  history went wrong;
* `Dispatch.Marked` — whoever carries the output of a failed item, or has died, has its flag raised.

Main results:

* `Dispatch.Reachable.marked` — **whoever has died has its flag raised**;
* `Dispatch.failedThreads_add_joinFailures` — every flag is reported once;
* `Dispatch.isSuccess_iff_not_flagged` — a dispatch that is over succeeded exactly if no flag is
  raised.
-/

import OrderedDispatch.Dispatch.Report
import OrderedDispatch.Proofs.Dispatch.Line

set_option relaxedAutoImplicit false
set_option autoImplicit false

namespace OrderedDispatch

/-- How the work ended whose output a worker carries to the gate. -/
def Phase.closed? : Phase → Option Ending
  | retiring _ _ ending _ => some ending
  | _ => none

theorem Phase.notified_closed? (p : Phase) : p.notified.closed? = p.closed? := by
  cases p <;> rfl

theorem Phase.notified_eq_dead_iff (p : Phase) : p.notified = .dead ↔ p = .dead := by
  cases p <;> simp [notified]

namespace Dispatch

variable {σ : Type} {job : Job σ} {sink : σ} {d d' : Dispatch σ}

/-! ### Flags and faults -/

/-- Some worker has its flag raised. -/
def Flagged (d : Dispatch σ) : Prop := ∃ w ∈ d.workers, w.failed = true

/-- The work of some item ended badly, or some retirement went wrong. -/
def Faulty (d : Dispatch σ) : Prop :=
  (∃ p ∈ d.endings, p.2.isFault = true) ∨ ∃ p ∈ d.retirements, p.2.isSome = true

/-! ### The dead -/

/-- Whoever carries the output of a failed item, or has died, has its flag raised. -/
def Marked (d : Dispatch σ) : Prop :=
  ∀ (t : Nat) (w : Worker), d.workers[t]? = some w →
    (w.phase = .dead → w.failed = true)
      ∧ ∀ ending, w.phase.closed? = some ending → ending.isFault = true → w.failed = true

/-- A turn that marks its worker keeps the others as they are. -/
theorem Marked.turn (h : Marked d) {t : Nat} {w w' : Worker} {es : List Entry} {wakes : Bool}
    (turn : Turn d d' t w w' es wakes) (hdead : w'.phase = .dead → w'.failed = true)
    (hclosed : ∀ ending, w'.phase.closed? = some ending → ending.isFault = true →
      w'.failed = true) : Marked d' := by
  refine turn.forall_workers ⟨hdead, hclosed⟩ (fun _ u v _ hv => h u v hv) fun _ u v _ hv => ?_
  refine ⟨fun hp => (h u v hv).1 ((Phase.notified_eq_dead_iff v.phase).1 hp), fun ending hp => ?_⟩
  exact (h u v hv).2 ending ((Phase.notified_closed? v.phase).symm.trans hp)

theorem Marked.between {m : Move} (h : Marked d) (hs : Interim d d' m) : Marked d' := by
  cases hs with
  | begun turn same => exact h.turn turn nofun nofun
  | exited turn noneLeft moved => exact h.turn turn nofun nofun
  | worked turn effect allowed same => exact h.turn turn nofun nofun
  | arrived turn free moved => exact h.turn turn nofun (h _ _ turn.before).2
  | resumed turn free moved => exact h.turn turn nofun (h _ _ turn.before).2
  | slept turn notNext moved => exact h.turn turn nofun (h _ _ turn.before).2
  | woken turn same => exact h.turn turn nofun (h _ _ turn.before).2

/-- Whoever has died has its flag raised. -/
theorem Reachable.marked (h : Reachable job sink d) : Marked d := by
  refine h.invariant (fun t w hw => ?_) ?_
  · obtain rfl := List.eq_of_mem_replicate (List.mem_of_getElem? hw)
    exact ⟨nofun, nofun⟩
  · intro e e' m _ he hc
    cases hc with
    | between interim => exact he.between interim
    | claimed turn opened someLeft moved => exact he.turn turn nofun nofun
    | finished turn ends take gate ended =>
        refine he.turn turn nofun fun e hclosed hfault => ?_
        obtain rfl := Option.some.inj hclosed
        simp [hfault]
    | @retired t failed output ending carried fault turn first moved =>
        refine he.turn turn (fun hdead => ?_) fun e hclosed => ?_
        · -- who dies carried the output of a fatal item, and has been marked when that ended
          have hfatal : ending.isFatal = true := by
            refine Bool.eq_true_of_not_eq_false fun hnot => ?_
            simp [hnot] at hdead
          have hfault : ending.isFault = true := by
            cases ending <;> first | rfl | cases hfatal
          have hfailed : failed = true := (he _ _ turn.before).2 ending rfl hfault
          simp [hfailed]
        · dsimp only at hclosed
          split at hclosed <;> cases hclosed

/-! ### The report -/

/-- Every flag raised is reported once when a dispatch is over, as a failure or as a death. -/
theorem failedThreads_add_joinFailures (job : Job σ) (hmarked : Marked d) (hover : d.isOver = true) :
    (Report.ofDispatch job d).failedThreads + (Report.ofDispatch job d).joinFailures
      = d.workers.countP Worker.failed := by
  refine countP_add_countP fun w hmem => ?_
  obtain ⟨t, hw⟩ := List.getElem?_of_mem hmem
  have hdead := (hmarked t w hw).1
  have hfinal := List.all_eq_true.1 hover w hmem
  cases hp : w.phase with
  | exited => simp [Worker.hasFailed, Worker.hasDied, hp]
  | dead => simp [Worker.hasFailed, Worker.hasDied, hp, hdead hp]
  | _ => rw [hp] at hfinal; cases hfinal

/-- A dispatch that is over succeeded exactly if no flag is raised. -/
theorem isSuccess_iff_not_flagged (hmarked : Marked d) (hover : d.isOver = true) :
    (Report.ofDispatch job d).isSuccess = true ↔ ¬ Flagged d := by
  have hflags := failedThreads_add_joinFailures job hmarked hover
  rw [Flagged, ← List.countP_pos_iff, ← hflags]
  simp only [Report.isSuccess, Bool.and_eq_true, decide_eq_true_eq]
  omega

end Dispatch

end OrderedDispatch
