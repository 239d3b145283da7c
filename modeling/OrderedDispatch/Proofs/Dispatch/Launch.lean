/-
**A refused worker takes no item with it.**

If the system refuses to start a worker, the dispatch ends in an error and without a summary.  Still
nothing is lost as long as one worker has been started: for the workers that were started the
dispatch is one on fewer workers, and how many there are cannot be seen in what is retired.  If the
very first worker is refused, nothing is done at all.

The log tells of the refusal, and of everything else that went wrong as usual.

Main results:

* `Pool.attempt_reachable` — the started workers leave the dispatch where some interleaving leads;
* `Pool.attempt_loses_nothing` — **the sink receives what it receives if no worker is refused**;
* `Pool.history_attempt_of_first` — nothing is done if the first worker is refused;
* `Pool.troubles_attempt` — the refusal is told once, beside everything else that went wrong.
-/

import OrderedDispatch.Proofs.Dispatch.Account
import OrderedDispatch.Proofs.Dispatch.Sequential
import OrderedDispatch.Proofs.Dispatch.Trouble

set_option relaxedAutoImplicit false
set_option autoImplicit false

namespace OrderedDispatch.Pool

open Dispatch (Reachable)

variable {σ : Type} {p : Pool} {refuses : Nat → Option String} {available items : Nat}
  {work : (thread item : Nat) → Script} {k : Sink σ} {s : σ} {e : SpawnError} {r : Attempt σ}

/-- The workers that were started before one was refused leave the dispatch in a state that some
interleaving of them leads to; and if the work of every item returns, they all exit or die. -/
theorem attempt_reachable
    (hr : p.attempt refuses available items work k s = r) (hfailed : r.outcome = .error e) :
    Reachable ((p.job available items work k).onThreads e.thread) s r.final
      ∧ ((p.job available items work k).Returns → r.final.isOver = true) := by
  subst hr
  have hle := Nat.le_of_lt (outcome_attempt_iff.1 hfailed).1
  rw [attempt, outcome_attempt.1 hfailed]
  exact ⟨Reachable.start.settle,
    fun hreturns => Reachable.start.isOver_settle (hreturns.onThreads hle)⟩

/-- **A refused worker takes no item with it.**  If the work of every item returns, does not depend
on the thread and does not kill its worker, and if one worker at least has been started, then the
sink receives the same calls, and the same items are retired with the same faults, as if no worker
had been refused. -/
theorem attempt_loses_nothing
    (hr : p.attempt refuses available items work k s = r) (hfailed : r.outcome = .error e)
    (hstarted : 1 ≤ e.thread) (huniform : (p.job available items work k).Uniform)
    (hreturns : (p.job available items work k).Returns)
    (hharmless : (p.job available items work k).Harmless) :
    r.final.calls = (p.run available items work k s).final.calls
      ∧ r.final.gate.sink = (p.run available items work k s).final.gate.sink
      ∧ r.final.retirements = (p.run available items work k s).final.retirements := by
  have hlt := (outcome_attempt_iff.1 (hr ▸ hfailed)).1
  obtain ⟨hreach, hover⟩ := attempt_reachable hr hfailed
  have huniform' := huniform.onThreads (Nat.le_of_lt hlt)
  have hitems : items ≠ 0 := by
    rintro rfl
    exact absurd (p.threads_le available 0 work k) (Nat.not_le.2 (Nat.zero_lt_of_lt hlt))
  have hstart : Reachable (p.job available items work k) s
      (Dispatch.start (p.job available items work k) s) := Reachable.start
  have hrun : (p.run available items work k s).final
      = (Dispatch.start (p.job available items work k) s).settle
          (p.job available items work k) := by
    simp only [run, hitems, if_false]
  -- both have retired all items
  have hall := hreach.next_eq_items huniform' hharmless hstarted (hover hreturns)
  have hall' := hstart.settle.next_eq_items huniform hharmless
    (Nat.le_of_lt (Nat.lt_of_le_of_lt hstarted hlt)) (hstart.isOver_settle hreturns)
  rw [hrun]
  obtain ⟨hcalls, hstate, hretired⟩ :=
    hstart.settle.same_retired hreach huniform huniform' (hall'.trans hall.symm)
  exact ⟨hcalls.symm, hstate.symm, hretired.symm⟩

/-- Nothing is done if the first worker is refused. -/
theorem history_attempt_of_first
    (hr : p.attempt refuses available items work k s = r) (hfailed : r.outcome = .error e)
    (hfirst : e.thread = 0) : r.final.history = [] := by
  obtain ⟨⟨moves, hmoves⟩, -⟩ := attempt_reachable hr hfailed
  have hstuck : ∀ m, (Dispatch.start ((p.job available items work k).onThreads e.thread) s).step?
      ((p.job available items work k).onThreads e.thread) m = none := by
    rw [hfirst]
    rintro (t | t) <;> rfl
  cases moves with
  | nil => rw [← Option.some.inj hmoves]; rfl
  | cons m rest => rw [Dispatch.run?, hstuck] at hmoves; cases hmoves

/-- **The refusal is told, once, beside everything else that went wrong.**  If the work logs no
warnings and errors of its own, those in the log of a failed dispatch are, up to their order, the
refusal, what is to be said of each session, and an error for each worker that has died. -/
theorem troubles_attempt
    (hr : p.attempt refuses available items work k s = r) (hfailed : r.outcome = .error e)
    (hquiet : (p.job available items work k).Quiet)
    (hreturns : (p.job available items work k).Returns) :
    (troublesIn p.settings.verbose r.log).Perm
      (⟨.error, none, e.event⟩
        :: r.final.sessions.flatMap (r.final.sessionTroubles (p.job available items work k))
          ++ r.final.deadWorkers.map fun t => ⟨.error, none, .notJoined t⟩) := by
  obtain ⟨hreach, hover⟩ := attempt_reachable hr hfailed
  have hle := Nat.le_of_lt (outcome_attempt_iff.1 (hr ▸ hfailed)).1
  have hquiet' : ((p.job available items work k).onThreads e.thread).Quiet :=
    fun t ht => hquiet t (Nat.lt_of_lt_of_le ht hle)
  have hlog : r.log = (p.sizing.events available items
          ++ [Event.creating (p.sizing.threadCount available items) items]).map (none, ·)
        ++ [(none, e.event)] ++ r.final.log
        ++ (Report.joinEvents r.final.workers).map (none, ·) := by
    subst hr
    rw [attempt, outcome_attempt.1 hfailed]
    simp only [List.map_append, List.map_cons, List.map_nil, List.append_assoc, List.cons_append,
      List.nil_append]
  rw [hlog, troublesIn_append, troublesIn_append, troublesIn_append, p.troubles_events,
    Report.troubles_joinEvents]
  exact ((hreach.troubles_perm hquiet' (hover hreturns)).cons _).append_right _

end OrderedDispatch.Pool
