/-
**Deaths are contained.**

An item that ends by a killing panic takes its worker with it, but only once the item is retired.
From its claim on the worker is doomed, so that there are always as many doomed workers as there are
fatal items below the take counter.  A doomed worker claims nothing more.  So an item is claimed as
long as there are fewer fatal items before it than workers, whatever the interleaving: with fewer
fatal items than workers all items are run, and otherwise those up to the item that takes the last
worker away.

Main definitions:

* `Job.fatal`, `Job.fatalItems`, `Job.fatalBelow` — the items that kill their worker, and how many
  there are below a number;
* `Phase.doomed` — the worker has died or is going to;
* `Dispatch.Contained` — what is run, retired and reported in spite of deaths.

Main results:

* `Dispatch.Reachable.countP_doomed` — **there are as many doomed workers as fatal items have been
  claimed**;
* `Dispatch.Reachable.fatalBelow_lt` — an item is claimed only while a worker is not doomed;
* `Dispatch.deaths_contained` — what a dispatch with deaths comes to.
-/

import OrderedDispatch.Dispatch.Report
import OrderedDispatch.Proofs.Dispatch.Line
import OrderedDispatch.Proofs.Dispatch.Rest

set_option relaxedAutoImplicit false
set_option autoImplicit false

namespace OrderedDispatch

variable {σ : Type} {job : Job σ} {sink : σ}

/-! ### Fatal items -/

namespace Job

/-- Whether an item kills its worker. -/
def fatal (job : Job σ) (item : Nat) : Bool := (job.work 0 item).ending.isFatal

/-- The items that kill their worker, in order. -/
def fatalItems (job : Job σ) : List Nat := (List.range job.items).filter job.fatal

/-- How many of the items below a number kill their worker. -/
def fatalBelow (job : Job σ) (n : Nat) : Nat := (List.range n).countP job.fatal

theorem fatalBelow_succ (job : Job σ) (n : Nat) :
    job.fatalBelow (n + 1) = job.fatalBelow n + (job.fatal n).toNat := by
  rw [fatalBelow, List.range_succ, List.countP_append, fatalBelow]
  cases h : job.fatal n <;> simp [h]

theorem fatalBelow_mono (job : Job σ) {m n : Nat} (h : m ≤ n) :
    job.fatalBelow m ≤ job.fatalBelow n := by
  refine List.Sublist.countP_le ?_
  obtain ⟨k, rfl⟩ := Nat.exists_eq_add_of_le h
  rw [List.range_add]
  exact List.sublist_append_left _ _

theorem length_fatalItems (job : Job σ) : job.fatalItems.length = job.fatalBelow job.items :=
  List.countP_eq_length_filter.symm

/-- A fatal item is the one in the list of fatal items that as many come before as are below it. -/
theorem fatalItems_getElem? {n : Nat} (hn : n < job.items) (hfatal : job.fatal n = true) :
    job.fatalItems[job.fatalBelow n]? = some n := by
  obtain ⟨k, hk⟩ := Nat.exists_eq_add_of_lt hn
  have hsplit : job.fatalItems = (List.range n).filter job.fatal
      ++ n :: ((List.range k).map (n + 1 + ·)).filter job.fatal := by
    rw [fatalItems, hk, Nat.add_right_comm, List.range_add, List.filter_append, List.range_succ,
      List.filter_append, List.append_assoc]
    simp [hfatal]
  rw [hsplit, fatalBelow, List.countP_eq_length_filter,
    List.getElem?_append_right (Nat.le_refl _), Nat.sub_self, List.getElem?_cons_zero]

/-- The first number that has so many fatal items below it comes right after one. -/
theorem fatalItems_of_first {n k : Nat} (hn : n ≤ job.items) (hk : job.fatalBelow n = k + 1)
    (hfirst : ∀ m < n, job.fatalBelow m ≤ k) :
    ∃ m, n = m + 1 ∧ job.fatalItems[k]? = some m := by
  cases n with
  | zero => cases hk
  | succ m =>
      have hm := hfirst m (Nat.lt_succ_self m)
      rw [fatalBelow_succ] at hk
      -- the count has gone up at the last number
      have hfatal : job.fatal m = true := by
        refine Bool.eq_true_of_not_eq_false fun hnot => ?_
        rw [hnot, Bool.toNat_false] at hk
        omega
      rw [hfatal, Bool.toNat_true] at hk
      obtain rfl : job.fatalBelow m = k := by omega
      exact ⟨m, rfl, fatalItems_getElem? hn hfatal⟩

end Job

/-! ### Doomed workers -/

namespace Phase

/-- Whether the worker has died or is going to die at the end of its turn. -/
def doomed : Phase → Bool
  | working _ todo _ => todo.ending.isFatal
  | retiring _ _ ending _ => ending.isFatal
  | dead => true
  | _ => false

theorem notified_doomed (p : Phase) : p.notified.doomed = p.doomed := by
  cases p <;> rfl

/-- Who has not died is doomed if its parcel is. -/
theorem doomed_eq_parcel? {p : Phase} (h : p ≠ .dead) :
    p.doomed = p.parcel?.any fun x => x.ending.isFatal := by
  cases p <;> first | rfl | exact absurd rfl h

/-- Who will take no further step is doomed if it has died. -/
theorem doomed_iff_of_isFinal {p : Phase} (h : p.isFinal = true) : p.doomed = true ↔ p = .dead := by
  cases p with
  | exited => simp [doomed]
  | dead => simp [doomed]
  | _ => cases h

end Phase

namespace Dispatch

variable {d d' : Dispatch σ}

/-- A turn changes the number of doomed workers by what it changes for one of them. -/
theorem Turn.countP_doomed {t : Nat} {w w' : Worker} {es : List Entry} {wakes before after : Bool}
    (turn : Turn d d' t w w' es wakes) (hbefore : w.phase.doomed = before)
    (hafter : w'.phase.doomed = after) :
    d'.workers.countP (fun w => w.phase.doomed) + before.toNat
      = d.workers.countP (fun w => w.phase.doomed) + after.toNat := by
  rw [← hbefore, ← hafter]
  exact turn.countP (p := fun w => w.phase.doomed) fun v => Phase.notified_doomed v.phase

/-- The steps between doom nobody and spare nobody. -/
theorem Interim.doomed_eq {m : Move} (h : Interim d d' m) :
    ∃ t w w' es, Turn d d' t w w' es false ∧ w'.phase.doomed = w.phase.doomed := by
  obtain ⟨t, w, w', es, -, turn, -, hleft, hdead, -, hparcel⟩ := h.exists_turn
  have halive : w.phase ≠ .dead := by
    intro hp
    rw [hp] at hleft
    cases hleft
  exact ⟨t, w, w', es, turn,
    by rw [Phase.doomed_eq_parcel? hdead, hparcel, Phase.doomed_eq_parcel? halive]⟩

theorem Interim.countP_doomed {m : Move} (h : Interim d d' m) :
    d'.workers.countP (fun w => w.phase.doomed) = d.workers.countP fun w => w.phase.doomed := by
  obtain ⟨t, w, w', es, turn, hsame⟩ := h.doomed_eq
  exact Nat.add_right_cancel (turn.countP_doomed rfl hsame)

/-- **There are as many doomed workers as fatal items have been claimed.** -/
theorem Reachable.countP_doomed (h : Reachable job sink d) (huniform : job.Uniform) :
    d.workers.countP (fun w => w.phase.doomed) = job.fatalBelow d.take.next := by
  refine h.invariant (P := fun d => d.workers.countP (fun w => w.phase.doomed)
    = job.fatalBelow d.take.next) ?_ ?_
  · simp [Dispatch.start, Phase.doomed, Job.fatalBelow]
  · intro e e' m hreach he hc
    cases hc with
    | between interim => rw [interim.countP_doomed, interim.counters.1, he]
    | @claimed t failed session turn opened someLeft moved =>
        have ht : t < job.threads := hreach.length_workers ▸ turn.lt_length
        have hlt : e.take.next < job.items := hreach.limit ▸ someLeft
        have hcount := turn.countP_doomed rfl
          (congrArg (fun todo : Script => todo.ending.isFatal) (huniform t ht _ hlt))
        rw [moved.next someLeft, Job.fatalBelow_succ, ← he]
        exact hcount
    | finished turn ends take gate ended =>
        have hcount := turn.countP_doomed
          (congrArg Ending.isFatal (Script.ending_of_endsNow? ends).2) rfl
        rw [take, ← he]
        exact Nat.add_right_cancel hcount
    | @retired t failed output ending carried fault turn first moved =>
        have hdies : (if ending.isFatal then Phase.dead else .claiming).doomed
            = ending.isFatal := by
          cases ending.isFatal <;> rfl
        rw [moved.take, ← he]
        exact Nat.add_right_cancel (turn.countP_doomed rfl hdies)

/-- **An item is claimed only while a worker is not doomed.** -/
theorem Reachable.fatalBelow_lt (h : Reachable job sink d) (huniform : job.Uniform) :
    ∀ m < d.take.next, job.fatalBelow m < job.threads := by
  refine h.invariant (P := fun d => ∀ m < d.take.next, job.fatalBelow m < job.threads)
    nofun ?_
  intro e e' m hreach he hc
  cases hc with
  | between interim => rw [interim.counters.1]; exact he
  | claimed turn opened someLeft moved =>
      intro k hk
      rw [moved.next someLeft] at hk
      rcases Nat.lt_or_eq_of_le (Nat.le_of_lt_succ hk) with hlt | rfl
      · exact he k hlt
      · -- the worker that claims is not doomed
        rw [← hreach.countP_doomed huniform, ← hreach.length_workers]
        exact List.countP_lt_length_iff.2 ⟨_, List.mem_of_getElem? turn.before, rfl⟩
  | finished turn ends take gate ended => rw [take]; exact he
  | retired turn first moved => rw [moved.take]; exact he

/-! ### When it is over -/

/-- The dead are the doomed when a dispatch is over. -/
theorem Reachable.countP_hasDied (h : Reachable job sink d) (huniform : job.Uniform)
    (hover : d.isOver = true) :
    d.workers.countP Worker.hasDied = job.fatalBelow d.take.next := by
  rw [← h.countP_doomed huniform]
  refine List.countP_congr fun w hw => ?_
  rw [Phase.doomed_iff_of_isFinal (List.all_eq_true.1 hover w hw)]
  simp [Worker.hasDied]

/-- When a dispatch is over, all items have been claimed or all workers have died. -/
theorem Reachable.all_claimed_or_all_dead (h : Reachable job sink d) (huniform : job.Uniform)
    (hover : d.isOver = true) :
    d.take.next = job.items ∨ job.fatalBelow d.take.next = job.threads := by
  by_cases hdead : ∀ w ∈ d.workers, w.hasDied = true
  · refine Or.inr ?_
    rw [← h.countP_hasDied huniform hover, ← h.length_workers]
    exact List.countP_eq_length.2 hdead
  · obtain ⟨w, hmem, hw⟩ : ∃ w ∈ d.workers, ¬ w.hasDied = true := by
      simpa only [not_forall, exists_prop] using hdead
    obtain ⟨t, ht⟩ := List.getElem?_of_mem hmem
    have hfinal := List.all_eq_true.1 hover w hmem
    refine Or.inl (h.noneLeft ht ?_)
    cases hp : w.phase with
    | exited => rfl
    | dead => simp [Worker.hasDied, hp] at hw
    | _ => rw [hp] at hfinal; cases hfinal

/-- How many fatal items have been claimed when a dispatch is over. -/
theorem Reachable.fatalBelow_taken (h : Reachable job sink d) (huniform : job.Uniform)
    (hover : d.isOver = true) :
    job.fatalBelow d.take.next = min (job.fatalBelow job.items) job.threads := by
  have hmono := job.fatalBelow_mono h.window.bounded
  -- the last claim was made while a worker was not doomed
  have hle : job.fatalBelow d.take.next ≤ job.threads := by
    cases hn : d.take.next with
    | zero => exact Nat.zero_le _
    | succ m =>
        have hlast := h.fatalBelow_lt huniform m (hn ▸ Nat.lt_succ_self m)
        have := Bool.toNat_le (job.fatal m)
        rw [Job.fatalBelow_succ]
        omega
  rcases h.all_claimed_or_all_dead huniform hover with hall | hdead
  · rw [hall] at hle ⊢
    omega
  · omega

/-- **What a dispatch comes to in spite of deaths.** -/
structure Contained (job : Job σ) (sink : σ) (d : Dispatch σ) : Prop where
  /-- with fewer fatal items than workers all items are run -/
  all : job.fatalItems.length < job.threads → d.executed = List.range job.items
  /-- otherwise the items up to the one that takes the last worker away are run, and no others -/
  upTo : job.threads ≤ job.fatalItems.length →
    ∃ k, job.fatalItems[job.threads - 1]? = some k ∧ d.executed = List.range (k + 1)
  /-- the items that are run are retired, once each and in order -/
  retired : d.retirements.map Prod.fst = d.executed
  /-- the sink has received their outputs, those of fatal items too -/
  calls : d.calls = (job.sink.series sink
    (d.executed.map fun i => (job.work 0 i).output)).calls
  /-- as many workers have died as there are fatal items, or all -/
  joinFailures : (Report.ofDispatch job d).joinFailures
    = min job.fatalItems.length job.threads

theorem Reachable.contained (h : Reachable job sink d) (huniform : job.Uniform)
    (hthreads : 1 ≤ job.threads) (hover : d.isOver = true) : Contained job sink d := by
  have htaken := h.fatalBelow_taken huniform hover
  constructor
  · intro hfew
    rw [Job.length_fatalItems] at hfew
    rw [h.window.executed]
    rcases h.all_claimed_or_all_dead huniform hover with hall | hdead
    · rw [hall]
    · omega
  · intro hmany
    rw [Job.length_fatalItems] at hmany
    have hfirst : ∀ m < d.take.next, job.fatalBelow m ≤ job.threads - 1 := fun m hm =>
      Nat.le_sub_one_of_lt (h.fatalBelow_lt huniform m hm)
    obtain ⟨k, hk, hitem⟩ := Job.fatalItems_of_first (k := job.threads - 1) h.window.bounded
      (by omega) hfirst
    exact ⟨k, hitem, by rw [h.window.executed, hk]⟩
  · rw [h.window.retired, h.window.executed, h.next_eq_taken hover]
  · rw [(h.inLine huniform).calls, h.window.executed, h.next_eq_taken hover]
    rfl
  · rw [Job.length_fatalItems, ← htaken]
    exact h.countP_hasDied huniform hover

/-- **Deaths are contained, and what is run does not depend on the interleaving.**  If the work of
every item returns and does not depend on the thread, the steps of every run are bounded but for
wake-ups for no reason, a run never gets stuck before it is over, and when it is over the same items
have been run and retired, and the same number of workers has died. -/
theorem deaths_contained (huniform : job.Uniform) (hreturns : job.Returns)
    (hthreads : 1 ≤ job.threads) {moves : List Move} {d : Dispatch σ}
    (hrun : (Dispatch.start job sink).run? job moves = some d) :
    moves.countP Move.isAdvance
        ≤ (Dispatch.start job sink).potential job + 2 * moves.countP Move.isWake
      ∧ (d.isOver = false → ∃ t d', d.step? job (.advance t) = some d')
      ∧ (d.isOver = true → Contained job sink d) := by
  have h : Reachable job sink d := ⟨moves, hrun⟩
  refine ⟨?_, h.exists_advance hreturns, h.contained huniform hthreads⟩
  have := Reachable.start.advances_add_potential_le hrun
  omega

/-- A script for the sample: the first two items kill their workers. -/
def killingScript (item : Nat) : Script :=
  if item < 2 then [.write [7], .kill] else [.write [8]]

/-- In the sample with that script both workers die, and the last item is never run. -/
theorem deaths_contained_sample : ∃ d, Reachable (sampleJob killingScript) {} d
    ∧ d.isOver = true ∧ d.executed = [0, 1] ∧ d.retirements.map Prod.fst = [0, 1]
    ∧ (Report.ofDispatch (sampleJob killingScript) d).joinFailures = 2 := by
  have huniform : (sampleJob killingScript).Uniform := fun _ _ _ _ => rfl
  have hreturns : (sampleJob killingScript).Returns := by
    unfold Job.Returns
    decide
  have hitems : (sampleJob killingScript).fatalItems = [0, 1] := by decide
  have hstart : Reachable (sampleJob killingScript) {} (Dispatch.start _ {}) := Reachable.start
  have hover := hstart.isOver_settle hreturns
  obtain ⟨moves, hrun⟩ := hstart.settle
  obtain ⟨-, -, hcontained⟩ := deaths_contained huniform hreturns (by decide) hrun
  obtain ⟨-, upTo, hretired, -, hfailures⟩ := hcontained hover
  obtain ⟨k, hk, hexecuted⟩ := upTo (by decide)
  rw [hitems] at hk
  obtain rfl : 1 = k := Option.some.inj hk
  refine ⟨_, ⟨moves, hrun⟩, hover, hexecuted, ?_, ?_⟩
  · rw [hretired, hexecuted]
    rfl
  · rw [hfailures, hitems]
    rfl

end Dispatch

end OrderedDispatch
