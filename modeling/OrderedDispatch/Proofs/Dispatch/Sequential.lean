/-
**A dispatch does what one worker does.**

If no item kills its worker and the work of an item does not depend on the thread, then a dispatch
cannot be told from the same dispatch on one worker: at any moment the sink has received a part of
what it receives there, and in the end the calls, the sink, the retirements and the outcome are the
same.  Both are compared with the line of outputs, which does not mention the number of workers.

Main definitions:

* `Job.alone` — the same job on one worker;
* `Job.Harmless` — no item kills its worker.

Main results:

* `Dispatch.Reachable.faulty_iff` — whether something went wrong can be read off the job;
* `Dispatch.Reachable.same_retired` — the number of workers cannot be seen in what is retired;
* `Dispatch.refines_alone` — **a dispatch refines the dispatch on one worker**.
-/

import OrderedDispatch.Dispatch.Launch
import OrderedDispatch.Proofs.Dispatch.Blame
import OrderedDispatch.Proofs.Dispatch.Deaths

set_option relaxedAutoImplicit false
set_option autoImplicit false

namespace OrderedDispatch

variable {σ : Type} {job : Job σ} {sink : σ}

namespace Job

/-- The same job on one worker. -/
def alone (job : Job σ) : Job σ := { job with threads := 1 }

/-- No item kills its worker. -/
def Harmless (job : Job σ) : Prop := ∀ i < job.items, job.fatal i = false

theorem Uniform.alone (job : Job σ) : job.alone.Uniform := by
  intro t ht i _
  obtain rfl : t = 0 := Nat.lt_one_iff.1 ht
  rfl

/-- Fewer workers see fewer threads. -/
theorem Uniform.onThreads (h : job.Uniform) {n : Nat} (hn : n ≤ job.threads) :
    (job.onThreads n).Uniform :=
  fun t ht => h t (Nat.lt_of_lt_of_le ht hn)

theorem Returns.onThreads (h : job.Returns) {n : Nat} (hn : n ≤ job.threads) :
    (job.onThreads n).Returns :=
  fun t ht => h t (Nat.lt_of_lt_of_le ht hn)

end Job

namespace Dispatch

variable {d : Dispatch σ}

/-- Without fatal items everything is claimed and retired when a dispatch is over. -/
theorem Reachable.next_eq_items (h : Reachable job sink d) (huniform : job.Uniform)
    (hharmless : job.Harmless) (hthreads : 1 ≤ job.threads) (hover : d.isOver = true) :
    d.gate.next = job.items := by
  rw [h.next_eq_taken hover]
  rcases h.all_claimed_or_all_dead huniform hover with hall | hdead
  · exact hall
  · have hnone : job.fatalBelow d.take.next = 0 := by
      refine List.countP_eq_zero.2 fun i hi => ?_
      rw [hharmless i (Nat.lt_of_lt_of_le (List.mem_range.1 hi) h.window.bounded)]
      exact Bool.false_ne_true
    omega

/-- **Whether something went wrong can be read off the job**: some script ends badly, or some output
goes wrong in the line of outputs. -/
theorem Reachable.faulty_iff (h : Reachable job sink d) (huniform : job.Uniform)
    (hall : d.gate.next = job.items) :
    Faulty d ↔ (∃ i < job.items, (job.work 0 i).ending.isFault = true)
      ∨ ∃ fault ∈ (job.sink.series sink (job.outputs job.items)).faults, fault.isSome = true := by
  have hendings : (∃ p ∈ d.endings, p.2.isFault = true)
      ↔ ∃ i < job.items, (job.work 0 i).ending.isFault = true := by
    constructor
    · rintro ⟨p, hp, hfault⟩
      obtain ⟨hlt, t, ht, hending⟩ := h.ending p hp
      rw [hending, huniform t ht _ hlt] at hfault
      exact ⟨p.1, hlt, hfault⟩
    · rintro ⟨i, hi, hfault⟩
      have hone := h.settled.count_endings h.window (hall.symm ▸ hi)
      obtain ⟨p, hp, rfl⟩ := List.mem_map.1 (List.count_pos_iff.1 (hone ▸ Nat.one_pos))
      obtain ⟨hlt, t, ht, hending⟩ := h.ending p hp
      exact ⟨p, hp, by rw [hending, huniform t ht _ hlt]; exact hfault⟩
  rw [Faulty, hendings, ← hall, ← (h.inLine huniform).faults]
  refine or_congr_right ⟨?_, ?_⟩
  · rintro ⟨p, hp, hfault⟩
    exact ⟨p.2, List.mem_map_of_mem hp, hfault⟩
  · rintro ⟨fault, hmem, hfault⟩
    obtain ⟨p, hp, rfl⟩ := List.mem_map.1 hmem
    exact ⟨p, hp, hfault⟩

/-- Dispatches of the same items on different numbers of workers have made the same calls and
retirements once the same number of items is retired. -/
theorem Reachable.same_retired {n : Nat} {d' : Dispatch σ} (h : Reachable job sink d)
    (h' : Reachable (job.onThreads n) sink d') (huniform : job.Uniform)
    (huniform' : (job.onThreads n).Uniform) (hsame : d.gate.next = d'.gate.next) :
    d.calls = d'.calls ∧ d.gate.sink = d'.gate.sink ∧ d.retirements = d'.retirements := by
  have hline := h.inLine huniform
  have hline' := h'.inLine huniform'
  refine ⟨?_, ?_, ?_⟩
  · rw [hline.calls, hline'.calls, hsame]
    rfl
  · rw [hline.state, hline'.state, hsame]
    rfl
  · rw [List.zip_of_prod h.window.retired hline.faults,
      List.zip_of_prod h'.window.retired hline'.faults, hsame]
    rfl

/-- **A dispatch refines the dispatch on one worker.**  If the work of every item returns, does not
depend on the thread and does not kill its worker, then the dispatch on one worker can be completed;
and whatever it has come to then, any interleaving of several workers has made a part of the calls,
and in the end the same calls, with the same state of the sink, the same retirements and the same
outcome. -/
theorem refines_alone (sink : σ) (huniform : job.Uniform) (hreturns : job.Returns)
    (hharmless : job.Harmless) (hthreads : 1 ≤ job.threads) :
    (∃ d₁, Reachable job.alone sink d₁ ∧ d₁.isOver = true)
      ∧ ∀ d₁, Reachable job.alone sink d₁ → d₁.isOver = true → ∀ d, Reachable job sink d →
        d.calls <+: d₁.calls
          ∧ (d.isOver = true → d.calls = d₁.calls ∧ d.gate.sink = d₁.gate.sink
            ∧ d.retirements = d₁.retirements
            ∧ (Report.ofDispatch job d).outcome = (Report.ofDispatch job.alone d₁).outcome) := by
  -- both dispatches are compared with the line of outputs of all items
  have halone : job.alone.Uniform := Job.Uniform.alone job
  refine ⟨⟨_, Reachable.start.settle, Reachable.start.isOver_settle (hreturns.onThreads hthreads)⟩,
    fun d₁ h₁ hover₁ d h => ?_⟩
  have hall₁ : d₁.gate.next = job.items :=
    h₁.next_eq_items halone hharmless (Nat.le_refl 1) hover₁
  refine ⟨?_, fun hover => ?_⟩
  · rw [(h.inLine huniform).calls, (h₁.inLine halone).calls]
    refine Sink.calls_series_prefix _ _ (job.outputs_prefix ?_)
    rw [hall₁]
    exact Nat.le_trans h.window.ordered h.window.bounded
  · have hall := h.next_eq_items huniform hharmless hthreads hover
    obtain ⟨hcalls, hstate, hretired⟩ :=
      h.same_retired h₁ huniform halone (hall.trans hall₁.symm)
    have hsuccess : (Report.ofDispatch job d).isSuccess
        = (Report.ofDispatch job.alone d₁).isSuccess := by
      rw [Bool.eq_iff_iff, h.isSuccess_iff hover, h₁.isSuccess_iff hover₁,
        h.faulty_iff huniform hall, h₁.faulty_iff halone hall₁]
      rfl
    exact ⟨hcalls, hstate, hretired, by rw [Report.outcome, Report.outcome, hsuccess]⟩

/-- A script for the sample: one item fails and one panics, both with some output. -/
def faultyScript : Nat → Script
  | 1 => [.write [1], .note .hookPanicked, .fail "broken"]
  | 2 => [.write [5], .panic]
  | _ => [.write [7, 8]]

/-- In the sample with that script, the second item comes to the gate first and waits there; still
the dispatch makes the calls that one worker makes, and has the same outcome. -/
theorem refines_alone_sample : ∃ d₁ d,
    Reachable (sampleJob faultyScript).alone {} d₁ ∧ d₁.isOver = true
      ∧ Reachable (sampleJob faultyScript) {} d ∧ d.Sleeps 1 1 ∧ d.calls <+: d₁.calls
      ∧ (d.settle (sampleJob faultyScript)).calls = d₁.calls
      ∧ (Report.ofDispatch (sampleJob faultyScript) (d.settle (sampleJob faultyScript))).outcome
        = (Report.ofDispatch (sampleJob faultyScript).alone d₁).outcome := by
  have huniform : (sampleJob faultyScript).Uniform := fun _ _ _ _ => rfl
  have hreturns : (sampleJob faultyScript).Returns := by
    unfold Job.Returns
    decide
  have hharmless : (sampleJob faultyScript).Harmless := by
    unfold Job.Harmless
    decide
  have hasleep : ((Dispatch.start (sampleJob faultyScript) {}).run? (sampleJob faultyScript)
      (sampleMoves.take 9)).map (fun d => d.at? Phase.asleepWith? 1) = some (some 1) := by
    decide +kernel
  obtain ⟨d, hrun, hsleeps⟩ := Option.map_eq_some_iff.1 hasleep
  have h : Reachable (sampleJob faultyScript) {} d := ⟨sampleMoves.take 9, hrun⟩
  obtain ⟨⟨d₁, h₁, hover₁⟩, hrefines⟩ := refines_alone {} huniform hreturns hharmless
    (by decide)
  obtain ⟨hcalls, -, -, houtcome⟩ :=
    (hrefines d₁ h₁ hover₁ _ h.settle).2 (h.isOver_settle hreturns)
  exact ⟨d₁, d, h₁, hover₁, h, hsleeps, (hrefines d₁ h₁ hover₁ d h).1, hcalls, houtcome⟩

end Dispatch

end OrderedDispatch
