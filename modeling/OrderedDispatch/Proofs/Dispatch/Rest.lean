/-
**Every dispatch comes to rest.**

Each step of a worker uses something up: a step of a script, an item that is still to be claimed, or
a place in the queue at the gate.  A retirement wakes all sleepers, who then look at the gate once
more, but there are only as many retirements as items.  So the steps of a run are bounded, whatever
the interleaving, by a number that depends on the job alone and by twice the wake-ups for no reason.
Since a dispatch never gets stuck, it comes to rest with every worker exited or dead.

Main definitions:

* `Job.cost` — a bound on the steps of one item from its claim to the gate;
* `Dispatch.potential` — a bound on the steps that are left, if nobody wakes for no reason.

Main results:

* `Dispatch.Reachable.advances_add_potential_le` — **the steps of a run are bounded**;
* `Dispatch.Reachable.settle`, `Dispatch.Reachable.isOver_settle` — workers that go on as long as
  one can come to rest, and then all have exited or died.
-/

import Mathlib.Algebra.BigOperators.Intervals
import Mathlib.Order.Lattice.Nat
import OrderedDispatch.Dispatch.Schedule
import OrderedDispatch.Proofs.Dispatch.Progress

set_option relaxedAutoImplicit false
set_option autoImplicit false

namespace OrderedDispatch

open Finset

/-! ### The weight of the workers -/

/-- Waking a worker adds two steps at most: it takes the mutex again and looks at the gate. -/
theorem Phase.weight_notified_le (p : Phase) : p.notified.weight ≤ p.weight + 2 := by
  cases p with
  | retiring item output ending call =>
      cases call <;> simp [Phase.notified, CallPhase.notified, Phase.weight, CallPhase.weight]
  | _ => simp [Phase.notified]

/-- Waking all sleepers adds two steps for each worker at most. -/
theorem Worker.total_weight_notified_le (workers : List Worker) :
    Worker.total Phase.weight (workers.map Worker.notified)
      ≤ Worker.total Phase.weight workers + 2 * workers.length := by
  induction workers with
  | nil => rfl
  | cons w rest ih =>
      have := Phase.weight_notified_le w.phase
      simp only [List.map_cons, Worker.total, Worker.notified, List.length_cons] at ih ⊢
      omega

variable {σ : Type} {job : Job σ} {sink : σ}

/-- A bound on the steps of an item from its claim to the gate, on whatever thread. -/
def Job.cost (job : Job σ) (item : Nat) : Nat :=
  ((range job.threads).sup fun t => (job.work t item).length) + 4

theorem Job.length_work_le {t : Nat} (ht : t < job.threads) (item : Nat) :
    (job.work t item).length + 4 ≤ job.cost item := by
  have := le_sup (f := fun t => (job.work t item).length) (mem_range.2 ht)
  exact Nat.add_le_add_right this 4

namespace Dispatch

/-- The steps that the workers may take until they claim or retire an item or exit, together with
those of the items to be claimed and of the wake-ups that go with the items to be retired. -/
def potential (job : Job σ) (d : Dispatch σ) : Nat :=
  d.stepsLeft + ∑ i ∈ Ico d.take.next job.items, job.cost i
    + 2 * job.threads * (job.items - d.gate.next)

/-! ### What a step uses up -/

/-- A turn that wakes nobody changes the steps left by what it changes for its worker. -/
theorem Turn.stepsLeft {d d' : Dispatch σ} {t : Nat} {w w' : Worker} {es : List Entry}
    (turn : Turn d d' t w w' es false) :
    d'.stepsLeft + w.phase.weight = d.stepsLeft + w'.phase.weight := by
  rw [Dispatch.stepsLeft, turn.workers]
  exact Worker.total_set Phase.weight turn.before w'

/-- A turn that wakes all sleepers adds two steps for each worker at most. -/
theorem Turn.stepsLeft_le {d d' : Dispatch σ} {t : Nat} {w w' : Worker} {es : List Entry}
    (turn : Turn d d' t w w' es true) (hsame : w.phase.notified = w.phase) :
    d'.stepsLeft + w.phase.weight ≤ d.stepsLeft + w'.phase.weight + 2 * d.workers.length := by
  have hbefore : (d.workers.map Worker.notified)[t]? = some w.notified := by simp [turn.before]
  have hset := Worker.total_set Phase.weight hbefore w'
  have hwoken := Worker.total_weight_notified_le d.workers
  rw [Dispatch.stepsLeft, turn.workers, if_pos rfl]
  simp only [Worker.notified, hsame] at hset
  simp only [Dispatch.stepsLeft]
  omega

/-- A step between by a worker uses up one of the steps left; waking for no reason adds two. -/
theorem Interim.stepsLeft {d d' : Dispatch σ} {m : Move} (h : Interim d d' m) :
    match m with
    | .advance _ => d'.stepsLeft < d.stepsLeft
    | .wake _ => d'.stepsLeft = d.stepsLeft + 2 := by
  cases h with
  | begun turn same =>
      have := turn.stepsLeft
      simp only [Phase.weight] at this ⊢
      omega
  | exited turn noneLeft moved =>
      have := turn.stepsLeft
      simp only [Phase.weight] at this ⊢
      omega
  | worked turn effect allowed same =>
      have := turn.stepsLeft
      simp only [Phase.weight, List.length_cons] at this ⊢
      omega
  | arrived turn free moved =>
      have := turn.stepsLeft
      simp only [Phase.weight, CallPhase.weight] at this ⊢
      omega
  | resumed turn free moved =>
      have := turn.stepsLeft
      simp only [Phase.weight, CallPhase.weight] at this ⊢
      omega
  | slept turn notNext moved =>
      have := turn.stepsLeft
      simp only [Phase.weight, CallPhase.weight] at this ⊢
      omega
  | woken turn same =>
      have := turn.stepsLeft
      simp only [Phase.weight, CallPhase.weight] at this ⊢
      omega

/-- **What a step uses up**: a step of a worker brings the potential down, and waking for no reason
brings it up by two. -/
theorem Reachable.potential_change {d d' : Dispatch σ} {m : Move} (h : Reachable job sink d)
    (hc : Change job d d' m) :
    match m with
    | .advance _ => d'.potential job < d.potential job
    | .wake _ => d'.potential job = d.potential job + 2 := by
  cases hc with
  | between interim =>
      have hsteps := interim.stepsLeft
      simp only [potential, interim.counters.1, interim.counters.2.2.1]
      cases m with
      | advance t => dsimp only at hsteps ⊢; omega
      | wake t => dsimp only at hsteps ⊢; omega
  | @claimed t failed session turn opened someLeft moved =>
      have hsteps := turn.stepsLeft
      have ht : t < job.threads := h.length_workers ▸ turn.lt_length
      -- the steps of the item leave the sum over what is unclaimed
      have hcost := Job.length_work_le ht d.take.next
      have hlimit : d.take.next < job.items := h.limit ▸ someLeft
      simp only [Phase.weight] at hsteps
      simp only [potential, moved.gate, moved.next someLeft, sum_eq_sum_Ico_succ_bot hlimit]
      omega
  | finished turn ends take gate ended =>
      have hsteps := turn.stepsLeft
      simp only [Phase.weight, CallPhase.weight] at hsteps
      simp only [potential, take, gate]
      omega
  | retired turn first moved =>
      have hsteps := turn.stepsLeft_le rfl
      have hheld : d.gate.next < job.items :=
        Nat.lt_of_lt_of_le (h.window.within (at?_eq_some.2 ⟨_, turn.before, rfl⟩)).2
          h.window.bounded
      -- one retirement less is to come, which pays for the workers that are woken
      have hqueue : 2 * job.threads * (job.items - d.gate.next)
          = 2 * job.threads * (job.items - (d.gate.next + 1)) + 2 * job.threads := by
        rw [← Nat.mul_succ]
        congr 1
        omega
      have hlight : ∀ e : Ending, (if e.isFatal then Phase.dead else .claiming).weight ≤ 1 := by
        intro e
        split <;> simp [Phase.weight]
      have := hlight ‹Ending›
      rw [h.length_workers] at hsteps
      simp only [Phase.weight, CallPhase.weight] at hsteps this
      simp only [potential, moved.take, moved.gate]
      omega

/-! ### How long a run can be -/

/-- Whether a move is a step of a worker, and not a wake-up for no reason. -/
def Move.isAdvance : Move → Bool
  | advance _ => true
  | wake _ => false

/-- Whether a move is a wake-up for no reason. -/
def Move.isWake : Move → Bool
  | advance _ => false
  | wake _ => true

/-- **The steps of a run are bounded**: from any reachable state on, a run has no more steps of
workers than the potential allows, and two more for each wake-up for no reason. -/
theorem Reachable.advances_add_potential_le {d d' : Dispatch σ} {moves : List Move}
    (h : Reachable job sink d) (hrun : d.run? job moves = some d') :
    moves.countP Move.isAdvance + d'.potential job
      ≤ d.potential job + 2 * moves.countP Move.isWake := by
  induction moves generalizing d with
  | nil =>
      obtain rfl := Option.some.inj hrun
      simp
  | cons m rest ih =>
      obtain ⟨e, hstep, hrest⟩ := Option.bind_eq_some_iff.1 hrun
      have hlater := ih (h.step hstep) hrest
      have hhere := h.potential_change (change_of_step? hstep)
      cases m with
      | advance t =>
          rw [List.countP_cons_of_pos rfl, List.countP_cons_of_neg (by simp [Move.isWake])]
          dsimp only at hhere
          omega
      | wake t =>
          rw [List.countP_cons_of_neg (by simp [Move.isAdvance]), List.countP_cons_of_pos rfl]
          dsimp only at hhere
          omega

/-! ### Going on as long as one can -/

theorem exists_advance_of_nextFrom? {d d' : Dispatch σ} {t left : Nat}
    (h : d.nextFrom? job t left = some d') : ∃ u, d.step? job (.advance u) = some d' := by
  induction left generalizing t with
  | zero => cases h
  | succ left ih =>
      simp only [nextFrom?] at h
      split at h
      · rename_i d'' hstep
        exact ⟨t, hstep.trans h⟩
      · exact ih h

theorem step?_eq_none_of_nextFrom? {d : Dispatch σ} {t left : Nat}
    (h : d.nextFrom? job t left = none) {u : Nat} (hlow : t ≤ u) (hhigh : u < t + left) :
    d.step? job (.advance u) = none := by
  induction left generalizing t with
  | zero => omega
  | succ left ih =>
      simp only [nextFrom?] at h
      split at h
      · cases h
      · rename_i hnone
        rcases Nat.eq_or_lt_of_le hlow with rfl | hlt
        · exact hnone
        · exact ih h hlt (by omega)

/-- Going on as long as one can leads from a reachable state to a reachable state. -/
theorem Reachable.settle {d : Dispatch σ} (h : Reachable job sink d) :
    Reachable job sink (d.settle job) := by
  induction d using Dispatch.settle.induct job with
  | case1 d hnone =>
      rw [Dispatch.settle]
      split
      · exact h
      · simp_all
  | case2 d d' hsome ih =>
      obtain ⟨t, hstep⟩ := exists_advance_of_nextFrom? hsome
      rw [Dispatch.settle]
      split
      · simp_all
      · rename_i e he
        obtain rfl := Option.some.inj (hsome.symm.trans he)
        exact ih (h.step hstep)

/-- Nobody can go on any more after all have gone on as long as they could. -/
theorem next?_settle (d : Dispatch σ) : (d.settle job).next? job = none := by
  induction d using Dispatch.settle.induct job with
  | case1 d hnone =>
      rw [Dispatch.settle]
      split
      · exact hnone
      · simp_all
  | case2 d d' hsome ih =>
      rw [Dispatch.settle]
      split
      · simp_all
      · rename_i e he
        obtain rfl := Option.some.inj (hsome.symm.trans he)
        exact ih

/-- Where somebody can always go on while a worker is left, all have exited or died once nobody
can. -/
theorem Reachable.isOver_settle_of {d : Dispatch σ} (h : Reachable job sink d)
    (hadvance : ∀ {e : Dispatch σ}, Reachable job sink e → e.isOver = false →
      ∃ t e', e.step? job (.advance t) = some e') : (d.settle job).isOver = true := by
  refine Bool.eq_true_of_not_eq_false fun hleft => ?_
  obtain ⟨t, d', hstep⟩ := hadvance h.settle hleft
  have hlt : t < (d.settle job).workers.length := by
    obtain ⟨w, hw, -⟩ := Option.bind_eq_some_iff.1 hstep
    exact (List.getElem?_eq_some_iff.1 hw).1
  rw [step?_eq_none_of_nextFrom? (next?_settle d) (Nat.zero_le t) (by omega)] at hstep
  cases hstep

/-- **Workers that go on as long as one can come to rest**, and then all have exited or died. -/
theorem Reachable.isOver_settle {d : Dispatch σ} (h : Reachable job sink d)
    (hreturns : job.Returns) : (d.settle job).isOver = true :=
  h.isOver_settle_of fun he hleft => he.exists_advance hreturns hleft

end Dispatch

end OrderedDispatch
