/-
**The report accounts for every fault.**

A report holds two counters of workers.  They say just enough about the items: both are zero exactly
if every item has been run, has succeeded and has been retired without a fault; together they are
never greater than the number of workers, nor than the number of faulty items, and they are not both
zero if there is a faulty item.  How the faulty items were spread over the workers cannot be seen in
the exit status; if the work does not depend on the thread, neither can the interleaving nor the
number of workers.

Main definitions:

* `Dispatch.WentWell` — an item has been run, has succeeded and has been retired without a fault;
* `Dispatch.Accounts` — what a report says about the items.

Main results:

* `Dispatch.Reachable.isSuccess_iff_wentWell` — **a dispatch succeeded exactly if every item went
  well**;
* `Dispatch.Reachable.isSuccess_iff_script` — whether it succeeded can be read off the job, without
  the number of workers;
* `Dispatch.report_accounts` — the report of a pool accounts for every fault;
* `Pool.run_report` — the report of a whole dispatch is one of those.
-/

import OrderedDispatch.Proofs.Dispatch.Sequential

set_option relaxedAutoImplicit false
set_option autoImplicit false

namespace OrderedDispatch

variable {σ : Type} {job : Job σ} {sink : σ}

/-- As soon as there is an item, a pool starts a worker. -/
theorem Pool.one_le_threads (p : Pool) (available : Nat) {items : Nat} (hitems : 0 < items)
    (work : (thread item : Nat) → Script) (k : Sink σ) :
    1 ≤ (p.job available items work k).threads :=
  Sizing.effectiveThreads_pos hitems _ _ _

/-- A pool starts no more workers than there are items. -/
theorem Pool.threads_le (p : Pool) (available items : Nat)
    (work : (thread item : Nat) → Script) (k : Sink σ) :
    (p.job available items work k).threads ≤ items :=
  Sizing.effectiveThreads_le items _ _ _

namespace Dispatch

variable {d : Dispatch σ}

/-! ### Items that went well -/

/-- The item has been run, has succeeded and has been retired without a fault. -/
def WentWell (d : Dispatch σ) (i : Nat) : Prop :=
  i ∈ d.executed ∧ (i, Ending.succeeded) ∈ d.endings ∧ (i, none) ∈ d.retirements

/-- A list of pairs whose keys are distinct holds one value for each key. -/
theorem eq_of_mem_of_nodup_keys {α : Type} {l : List (Nat × α)} (hnodup : (l.map Prod.fst).Nodup)
    {i : Nat} {a b : α} (ha : (i, a) ∈ l) (hb : (i, b) ∈ l) : a = b :=
  congrArg Prod.snd (List.inj_on_of_nodup_map hnodup ha hb rfl)

/-- The work of an item ends in one way. -/
theorem Reachable.ending_unique (h : Reachable job sink d) {i : Nat} {e e' : Ending}
    (he : (i, e) ∈ d.endings) (he' : (i, e') ∈ d.endings) : e = e' := by
  refine eq_of_mem_of_nodup_keys ?_ he he'
  rw [h.settled.endings]
  exact List.nodup_reverse.2 h.settled.nodup

/-- An item is retired once. -/
theorem Reachable.retirement_unique (h : Reachable job sink d) {i : Nat} {f f' : Option Fault}
    (hf : (i, f) ∈ d.retirements) (hf' : (i, f') ∈ d.retirements) : f = f' := by
  refine eq_of_mem_of_nodup_keys ?_ hf hf'
  rw [h.window.retired]
  exact List.nodup_range

/-- An item that went well is not faulty. -/
theorem Reachable.isFaulty_of_wentWell (h : Reachable job sink d) {i : Nat} (hi : d.WentWell i) :
    d.isFaulty i = false := by
  obtain ⟨-, hending, hretired⟩ := hi
  refine Bool.eq_false_iff.2 fun hfaulty => ?_
  rcases isFaulty_eq_true.1 hfaulty with ⟨e, he, hfault⟩ | ⟨f, hf, hfault⟩
  · rw [h.ending_unique he hending] at hfault
    cases hfault
  · rw [h.retirement_unique hf hretired] at hfault
    cases hfault

/-- An item that is retired and not faulty went well. -/
theorem Reachable.wentWell_of_isFaulty (h : Reachable job sink d) {i : Nat}
    (hretired : i < d.gate.next) (hi : d.isFaulty i = false) : d.WentWell i := by
  have hnot := Bool.eq_false_iff.1 hi
  rw [Ne, isFaulty_eq_true, not_or] at hnot
  refine ⟨?_, ?_, ?_⟩
  · rw [h.window.executed, List.mem_range]
    exact Nat.lt_of_lt_of_le hretired h.window.ordered
  · have hone := h.settled.count_endings h.window hretired
    obtain ⟨⟨_, e⟩, he, rfl⟩ := List.mem_map.1 (List.count_pos_iff.1 (hone ▸ Nat.one_pos))
    have hfine : ¬ e.isFault = true := fun hfault => hnot.1 ⟨e, he, hfault⟩
    cases e with
    | succeeded => exact he
    | _ => exact absurd rfl hfine
  · have hmem := List.mem_range.2 hretired
    rw [← h.window.retired] at hmem
    obtain ⟨⟨_, f⟩, hf, rfl⟩ := List.mem_map.1 hmem
    have hfine : ¬ f.isSome = true := fun hfault => hnot.2 ⟨f, hf, hfault⟩
    cases f with
    | none => exact hf
    | some fault => exact absurd rfl hfine

/-! ### Success -/

/-- If nobody has died, all items have been retired when a dispatch is over. -/
theorem Reachable.next_eq_items_of_joined (h : Reachable job sink d)
    (hthreads : 0 < job.items → 1 ≤ job.threads) (hover : d.isOver = true)
    (hjoined : (Report.ofDispatch job d).joinFailures = 0) : d.gate.next = job.items := by
  rcases Nat.eq_zero_or_pos job.items with hnone | hitems
  · have := h.window.ordered
    have := h.window.bounded
    omega
  · -- the first worker has exited, which it does only when all items have been claimed
    have hlt : 0 < d.workers.length := h.length_workers ▸ hthreads hitems
    have hw := List.getElem?_eq_getElem hlt
    have hmem := List.getElem_mem hlt
    have hfinal := List.all_eq_true.1 hover _ hmem
    have halive := List.countP_eq_zero.1 hjoined _ hmem
    rw [h.next_eq_taken hover]
    refine h.noneLeft hw ?_
    cases hp : d.workers[0].phase with
    | exited => rfl
    | dead => simp [Worker.hasDied, hp] at halive
    | _ => rw [hp] at hfinal; cases hfinal

/-- A dispatch that succeeded has retired all items. -/
theorem Reachable.next_eq_items_of_isSuccess (h : Reachable job sink d)
    (hthreads : 0 < job.items → 1 ≤ job.threads) (hover : d.isOver = true)
    (hsuccess : (Report.ofDispatch job d).isSuccess = true) : d.gate.next = job.items := by
  simp only [Report.isSuccess, Bool.and_eq_true, decide_eq_true_eq] at hsuccess
  exact h.next_eq_items_of_joined hthreads hover hsuccess.2

/-- **A dispatch succeeded exactly if every item went well.** -/
theorem Reachable.isSuccess_iff_wentWell (h : Reachable job sink d)
    (hthreads : 0 < job.items → 1 ≤ job.threads) (hover : d.isOver = true) :
    (Report.ofDispatch job d).isSuccess = true ↔ ∀ i < job.items, d.WentWell i := by
  constructor
  · intro hsuccess i hi
    have hall := h.next_eq_items_of_isSuccess hthreads hover hsuccess
    refine h.wentWell_of_isFaulty (hall ▸ hi) (Bool.eq_false_iff.2 fun hfaulty => ?_)
    exact (h.isSuccess_iff hover).1 hsuccess (faulty_iff_exists_isFaulty.2 ⟨i, hfaulty⟩)
  · intro hwell
    rw [h.isSuccess_iff hover, faulty_iff_exists_isFaulty]
    rintro ⟨i, hfaulty⟩
    have hlt := Nat.lt_of_lt_of_le (h.lt_of_isFaulty hfaulty) h.window.bounded
    rw [h.isFaulty_of_wentWell (hwell i hlt)] at hfaulty
    cases hfaulty

/-- **Whether a dispatch succeeded can be read off the job**, without the number of workers: no
script ends badly, and no output goes wrong in the line of outputs. -/
theorem Reachable.isSuccess_iff_script (h : Reachable job sink d) (huniform : job.Uniform)
    (hthreads : 0 < job.items → 1 ≤ job.threads) (hover : d.isOver = true) :
    (Report.ofDispatch job d).isSuccess = true
      ↔ (∀ i < job.items, (job.work 0 i).ending.isFault = false)
        ∧ ∀ fault ∈ (job.sink.series sink (job.outputs job.items)).faults, fault = none := by
  have hclean : d.gate.next = job.items → (¬ Faulty d
      ↔ (∀ i < job.items, (job.work 0 i).ending.isFault = false)
        ∧ ∀ fault ∈ (job.sink.series sink (job.outputs job.items)).faults, fault = none) := by
    intro hall
    rw [h.faulty_iff huniform hall]
    simp
  constructor
  · intro hsuccess
    have hall := h.next_eq_items_of_isSuccess hthreads hover hsuccess
    exact (hclean hall).1 ((h.isSuccess_iff hover).1 hsuccess)
  · rintro ⟨hendings, hfaults⟩
    -- no item kills its worker, so that all are retired
    have hharmless : job.Harmless := by
      intro i hi
      have hfine := hendings i hi
      rw [Job.fatal]
      cases hending : (job.work 0 i).ending with
      | killed => rw [hending] at hfine; cases hfine
      | _ => rfl
    have hall : d.gate.next = job.items := by
      rcases Nat.eq_zero_or_pos job.items with hnone | hitems
      · have := h.window.ordered
        have := h.window.bounded
        omega
      · exact h.next_eq_items huniform hharmless (hthreads hitems) hover
    exact (h.isSuccess_iff hover).2 ((hclean hall).2 ⟨hendings, hfaults⟩)

/-! ### The report of a pool -/

/-- **What a report says about the items.** -/
structure Accounts (items : Nat) (d : Dispatch σ) (r : Report) : Prop where
  /-- it tells of success exactly if every item went well -/
  success_iff : r.isSuccess = true ↔ ∀ i < items, d.WentWell i
  /-- the exit status is zero exactly then, and one otherwise -/
  exitCode_iff : (r.exitCode = 0 ↔ ∀ i < items, d.WentWell i)
    ∧ (r.exitCode = 1 ↔ ¬ ∀ i < items, d.WentWell i)
  /-- it counts no more workers than there are, and there are no more than items -/
  threads : r.failedThreads + r.joinFailures ≤ r.threads ∧ r.threads ≤ items
  /-- it counts no more workers than items that have been run and went wrong -/
  atMost : r.failedThreads + r.joinFailures ≤ d.faultyItems.length
  /-- it counts a worker if such an item exists -/
  atLeast : d.faultyItems ≠ [] → 1 ≤ r.failedThreads + r.joinFailures

/-- The exit status tells of success. -/
theorem exitCode_iff_isSuccess (r : Report) :
    (r.exitCode = 0 ↔ r.isSuccess = true) ∧ (r.exitCode = 1 ↔ ¬ r.isSuccess = true) := by
  rw [Report.exitCode]
  cases r.isSuccess <;> simp

theorem Reachable.accounts (h : Reachable job sink d) (hthreads : 0 < job.items → 1 ≤ job.threads)
    (hfew : job.threads ≤ job.items) (hover : d.isOver = true) :
    Accounts job.items d (Report.ofDispatch job d) := by
  have hsuccess := h.isSuccess_iff_wentWell hthreads hover
  have hflags := failedThreads_add_joinFailures job h.marked hover
  obtain ⟨hzero, hone⟩ := exitCode_iff_isSuccess (Report.ofDispatch job d)
  constructor
  · exact hsuccess
  · exact ⟨hzero.trans hsuccess, hone.trans (not_congr hsuccess)⟩
  · have hle := List.countP_le_length (p := Worker.failed) (l := d.workers)
    rw [h.length_workers, ← hflags] at hle
    exact ⟨hle, hfew⟩
  · rw [hflags]
    exact h.countP_failed_le
  · intro hne
    obtain ⟨i, hi⟩ := List.exists_mem_of_ne_nil _ hne
    have hflagged : Flagged d := h.flagged_iff.2
      (faulty_iff_exists_isFaulty.2 ⟨i, h.mem_faultyItems.1 hi⟩)
    rw [hflags]
    exact List.countP_pos_iff.2 hflagged

/-- **The report of a pool accounts for every fault**, in every dispatch that is over; and if the
work does not depend on the thread, every other dispatch of the same items ends with the same exit
status, on whatever pool and in whatever interleaving. -/
theorem report_accounts {p : Pool} {available items : Nat}
    {work : (thread item : Nat) → Script} {k : Sink σ}
    (h : Reachable (p.job available items work k) sink d) (hover : d.isOver = true) :
    Accounts items d (Report.ofDispatch (p.job available items work k) d)
      ∧ ∀ (p' : Pool) (available' : Nat) (d' : Dispatch σ), (∀ t i, work t i = work 0 i) →
        Reachable (p'.job available' items work k) sink d' → d'.isOver = true →
        (Report.ofDispatch (p'.job available' items work k) d').exitCode
          = (Report.ofDispatch (p.job available items work k) d).exitCode := by
  refine ⟨h.accounts (fun hitems => p.one_le_threads available hitems work k)
    (p.threads_le available items work k) hover, fun p' available' d' huniform h' hover' => ?_⟩
  -- both are compared with what can be read off the scripts and the sink
  have hsuccess : ∀ {p : Pool} {available : Nat} {d : Dispatch σ},
      Reachable (p.job available items work k) sink d → d.isOver = true →
      ((Report.ofDispatch (p.job available items work k) d).isSuccess = true
        ↔ (∀ i < items, (work 0 i).ending.isFault = false)
          ∧ ∀ fault ∈ (k.series sink ((List.range items).map fun i => (work 0 i).output)).faults,
            fault = none) := fun {p available _} h hover =>
    h.isSuccess_iff_script (fun t _ i _ => huniform t i)
      (fun hitems => p.one_le_threads available hitems work k) hover
  have hsame := Bool.eq_iff_iff.2 ((hsuccess h' hover').trans (hsuccess h hover).symm)
  rw [Report.exitCode, Report.exitCode, hsame]

/-- In the sample with the deadly script a worker dies on one way to the end; any way to the end
gives the same exit status. -/
theorem report_accounts_sample : ∃ d, Reachable (sampleJob deadlyScript) {} d ∧ d.isOver = true
    ∧ (Report.ofDispatch (sampleJob deadlyScript) d).joinFailures = 1
    ∧ Accounts 3 d (Report.ofDispatch (sampleJob deadlyScript) d)
    ∧ (Report.ofDispatch (sampleJob deadlyScript) ((Dispatch.start (sampleJob deadlyScript)
        {}).settle (sampleJob deadlyScript))).exitCode
      = (Report.ofDispatch (sampleJob deadlyScript) d).exitCode := by
  have hend : ((Dispatch.start (sampleJob deadlyScript) {}).run? (sampleJob deadlyScript)
      (sampleMoves ++ [0, 0, 0, 0, 1, 1, 0, 0, 0].map Move.advance)).map
        (fun d => (d.isOver, d.workers.countP Worker.hasDied)) = some (true, 1) := by
    decide +kernel
  obtain ⟨d, hrun, hseen⟩ := Option.map_eq_some_iff.1 hend
  obtain ⟨hover, hdied⟩ := Prod.mk.inj hseen
  have hreturns : (sampleJob deadlyScript).Returns := by
    unfold Job.Returns
    decide
  have h : Reachable (sampleJob deadlyScript) {} d := ⟨_, hrun⟩
  have hstart : Reachable (sampleJob deadlyScript) {} (Dispatch.start (sampleJob deadlyScript) {}) :=
    Reachable.start
  have hsettled := hstart.settle
  have hover' := hstart.isOver_settle hreturns
  -- the sample is what a pool with two threads makes of its items
  have hpool : Pool.job { sizing := { requested := 2 } } 0 3 (fun _ => deadlyScript)
      (sampleJob deadlyScript).sink = sampleJob deadlyScript := rfl
  obtain ⟨haccounts, hsame⟩ := report_accounts (hpool ▸ h) hover
  refine ⟨d, h, hover, hdied, haccounts, ?_⟩
  exact hsame { sizing := { requested := 2 } } 0 _ (fun _ _ => rfl) hsettled hover'

end Dispatch

/-- The report of a whole dispatch is that of a state that some interleaving leads to, also if there
are no items and nothing is started. -/
theorem Pool.run_report (p : Pool) (available items : Nat) (work : (thread item : Nat) → Script)
    (k : Sink σ) (s : σ) :
    Dispatch.Reachable (p.job available items work k) s (p.run available items work k s).final
      ∧ (p.run available items work k s).report
        = Report.ofDispatch (p.job available items work k) (p.run available items work k s).final := by
  rcases Nat.eq_zero_or_pos items with rfl | hitems
  · have hnone : p.sizing.threadCount available 0 = 0 := by
      simp [Sizing.Policy.threadCount, Sizing.effectiveThreads]
    refine ⟨Dispatch.Reachable.start, ?_⟩
    simp [Pool.run, Report.ofDispatch, Dispatch.start, Pool.job, hnone]
  · simp only [Pool.run, Nat.ne_of_gt hitems, if_false]
    exact ⟨Dispatch.Reachable.start.settle, trivial⟩

end OrderedDispatch
