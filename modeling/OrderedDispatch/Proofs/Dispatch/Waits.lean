/-
**Items that wait for each other.**

With a worker for each item, the work of an item may wait until all items have started, and until
the work of another item has ended, whichever of the two comes first.  While a worker is left that
has not yet claimed anything, it can go on; so if nobody can go on, all items have been claimed, and
a wait for all of them is over.  What is left are waits for single items.  If those do not go round
in a circle, some item whose work goes on waits for no other whose work goes on, and its worker can
take a step.  The queue at the gate adds no circle, for an item is waited for until its work ends,
and only then its worker goes to the gate.

Main definitions:

* `Script.performed` — the steps of a script that are taken;
* `Job.WaitsFor`, `Job.Acyclic` — which item waits for the end of which, and that this does not go
  round in a circle.

Main results:

* `Dispatch.Reachable.restAt` — what a worker still takes steps of is the rest of what its script
  takes steps of;
* `Dispatch.Reachable.next_eq_items_of_busy` — with a worker for each item, all items have been
  claimed as soon as no worker is about to claim one;
* `Dispatch.Reachable.exists_advance_of_acyclic` — **a dispatch whose waits do not go round in a
  circle never gets stuck**.
-/

import Mathlib.Order.WellFoundedSet
import OrderedDispatch.Proofs.Dispatch.Blame
import OrderedDispatch.Proofs.Dispatch.Rest

set_option relaxedAutoImplicit false
set_option autoImplicit false

namespace OrderedDispatch

/-! ### The steps that are taken -/

/-- Whether a step ends the work. -/
def Step.endsWork : Step → Bool
  | fail _ | panic | kill => true
  | _ => false

/-- The steps that are taken: those before the first that ends the work. -/
def Script.performed (s : Script) : Script := s.takeWhile fun step => !step.endsWork

/-- A step that does not end the work is taken before the rest. -/
theorem Script.performed_cons_of_effect? {step : Step} {session session' : Session}
    {output output' : List UInt8} {es : List Entry}
    (h : step.effect? session output = some (session', output', es)) (todo : Script) :
    Script.performed (step :: todo) = step :: todo.performed := by
  cases step <;> first | rfl | cases h

/-- So is a step that waits. -/
theorem Script.performed_cons_of_isWait {step : Step} (h : step.isWait = true) (todo : Script) :
    Script.performed (step :: todo) = step :: todo.performed := by
  cases step <;> first | rfl | cases h

/-- Work that ends at once takes no steps. -/
theorem Script.performed_of_endsNow? {todo : Script} {e : Ending} (h : todo.endsNow? = some e) :
    todo.performed = [] := by
  cases todo with
  | nil => rfl
  | cons step rest => cases step <;> first | rfl | cases h

variable {σ : Type} {job : Job σ} {sink : σ}

/-! ### Which item waits for which -/

namespace Job

/-- On some thread the work of an item waits for the end of the work of another. -/
def WaitsFor (job : Job σ) (i k : Nat) : Prop :=
  i < job.items ∧ k < job.items ∧ ∃ t < job.threads, Step.ended k ∈ (job.work t i).performed

/-- The items do not wait for each other in a circle. -/
def Acyclic (job : Job σ) : Prop := ∀ i, ¬ Relation.TransGen job.WaitsFor i i

/-- A numbering that goes down along every wait rules a circle out. -/
theorem acyclic_of_rank (rank : Nat → Nat)
    (h : ∀ i k, job.WaitsFor i k → rank k < rank i) : job.Acyclic := by
  intro i hi
  have hdown : ∀ k, Relation.TransGen job.WaitsFor i k → rank k < rank i := by
    intro k hk
    induction hk with
    | single hstep => exact h _ _ hstep
    | tail _ hstep ih => exact Nat.lt_trans (h _ _ hstep) ih
  exact Nat.lt_irrefl _ (hdown i hi)

/-- Waits that do not go round in a circle can be followed only so far. -/
theorem Acyclic.wellFounded (h : job.Acyclic) : WellFounded fun k i => job.WaitsFor i k := by
  have : IsTrans Nat fun k i => Relation.TransGen job.WaitsFor i k :=
    ⟨fun _ _ _ hba hcb => hcb.trans hba⟩
  have : Std.Irrefl fun k i => Relation.TransGen job.WaitsFor i k := ⟨h⟩
  have : IsStrictOrder Nat fun k i => Relation.TransGen job.WaitsFor i k := {}
  -- there are only so many items
  have hfinite : (Set.Iio job.items).WellFoundedOn fun k i => Relation.TransGen job.WaitsFor i k :=
    (Set.finite_Iio job.items).wellFoundedOn
  exact Subrelation.wf (fun {_ _} hwaits => ⟨.single hwaits, hwaits.2.1, hwaits.1⟩)
    (Set.wellFoundedOn_iff.1 hfinite)

end Job

namespace Dispatch

variable {d : Dispatch σ}

/-! ### What a worker still takes steps of -/

/-- What it means for the worker with a number to have the rest of its script before it. -/
def RestAt (job : Job σ) (t : Nat) (w : Worker) : Prop :=
  ∀ session todo output, w.phase = .working session todo output →
    todo.performed <:+ (job.work t session.item).performed

/-- **What a worker still takes steps of** is the rest of what its script takes steps of. -/
theorem Reachable.restAt (h : Reachable job sink d) :
    ∀ t w, d.workers[t]? = some w → RestAt job t w := by
  refine h.working (P := fun t session todo =>
    todo.performed <:+ (job.work t session.item).performed) (fun _ _ => List.suffix_refl _) ?_
  intro t step todo session session' output output' es effect hrest
  rw [Script.performed_cons_of_effect? effect] at hrest
  rw [(Step.effect?_session effect).1]
  exact (List.suffix_cons step _).trans hrest

/-! ### Nobody is about to claim -/

/-- As many sessions have been opened as items have been claimed. -/
theorem Reachable.length_sessions (h : Reachable job sink d) : d.sessions.length = d.take.next := by
  have := congrArg List.length h.window.executed
  rwa [executed, List.length_map, List.length_range] at this

/-- **With a worker for each item, all items have been claimed** as soon as no worker is about to
claim one. -/
theorem Reachable.next_eq_items_of_busy (h : Reachable job sink d)
    (hthreads : job.items ≤ job.threads)
    (hbusy : ∀ (t : Nat) (w : Worker), d.workers[t]? = some w →
      w.phase ≠ .starting ∧ w.phase ≠ .claiming) :
    d.take.next = job.items := by
  by_cases hexited : ∃ (t : Nat) (w : Worker), d.workers[t]? = some w ∧ w.phase = .exited
  · obtain ⟨t, w, hw, hp⟩ := hexited
    exact h.noneLeft hw hp
  · -- every worker has opened a session
    have hsubset : List.range job.threads ⊆ d.sessions.map Session.thread := by
      intro t ht
      rw [List.mem_range, ← h.length_workers] at ht
      have hw := List.getElem?_eq_getElem ht
      obtain ⟨hitem, hdead⟩ := h.attended t _ hw
      obtain ⟨hstarting, hclaiming⟩ := hbusy t _ hw
      have hsession : ∃ s ∈ d.sessions, s.thread = t := by
        cases hp : d.workers[t].phase with
        | working session todo output =>
            obtain ⟨s, hs, hthread, -⟩ := hitem session.item (by rw [hp]; rfl)
            exact ⟨s, hs, hthread⟩
        | retiring item output ending call =>
            obtain ⟨s, hs, hthread, -⟩ := hitem item (by rw [hp]; rfl)
            exact ⟨s, hs, hthread⟩
        | dead => exact hdead hp
        | starting => exact absurd hp hstarting
        | claiming => exact absurd hp hclaiming
        | exited => exact absurd ⟨t, _, hw, hp⟩ hexited
      exact List.mem_map.2 hsession
    have hle := (List.nodup_range.subperm hsubset).length_le
    rw [List.length_range, List.length_map, h.length_sessions] at hle
    exact Nat.le_antisymm h.window.bounded (Nat.le_trans hthreads hle)

/-! ### Somebody can go on -/

/-- A worker whose next step has not to wait can go on. -/
theorem exists_advance_of_allows {t : Nat} {session : Session} {step : Step} {todo : Script}
    {output : List UInt8} {failed : Bool}
    (hw : d.workers[t]? = some ⟨.working session (step :: todo) output, failed⟩)
    (hallows : d.Allows step) : ∃ d', d.step? job (.advance t) = some d' := by
  cases step with
  | allStarted =>
      simp only [step?, hw, Option.bind_some, advance?, workStep?]
      exact ⟨_, if_pos hallows⟩
  | ended item =>
      simp only [step?, hw, Option.bind_some, advance?, workStep?]
      exact ⟨_, if_pos hallows⟩
  | _ => exact exists_advance_of_ready hw trivial Bool.false_ne_true

/-- When all items have been claimed, the work of an item has not to wait if it waits for none whose
work still goes on. -/
theorem Reachable.allows_of_minimal (h : Reachable job sink d) (htaken : d.take.next = job.items)
    {t : Nat} {session : Session} {step : Step} {todo : Script} {output : List UInt8}
    {failed : Bool} (hw : d.workers[t]? = some ⟨.working session (step :: todo) output, failed⟩)
    (hwait : step.isWait = true)
    (hminimal : ∀ k u, d.at? Phase.busy? u = some k → ¬ job.WaitsFor session.item k) :
    d.Allows step := by
  have hstep : step ∈ (job.work t session.item).performed := by
    have hrest := h.restAt t _ hw session (step :: todo) output rfl
    rw [Script.performed_cons_of_isWait hwait] at hrest
    exact hrest.mem (List.mem_cons_self ..)
  cases step with
  | allStarted =>
      rw [Allows, h.limit]
      exact Nat.le_of_eq htaken.symm
  | ended k =>
      rw [Allows, h.limit, h.settled.mem_iff, htaken]
      refine (Nat.lt_or_ge k job.items).symm.imp id fun hk => ⟨hk, fun u hu => ?_⟩
      refine hminimal k u hu ⟨?_, hk, t, ?_, hstep⟩
      · exact htaken ▸ (h.window.within (at?_eq_some.2 ⟨_, hw, rfl⟩)).2
      · rw [← h.length_workers]
        exact (List.getElem?_eq_some_iff.1 hw).1
  | _ => cases hwait

/-- **A dispatch whose waits do not go round in a circle never gets stuck**, if there is a worker
for each item. -/
theorem Reachable.exists_advance_of_acyclic (h : Reachable job sink d)
    (hthreads : job.items ≤ job.threads) (hacyclic : job.Acyclic) (hleft : d.isOver = false) :
    ∃ t d', d.step? job (.advance t) = some d' := by
  by_contra hstuck
  have hnone : ∀ t, ¬ ∃ d', d.step? job (.advance t) = some d' := fun t ht => hstuck ⟨t, ht⟩
  -- nobody is about to claim, so that no item is left to be claimed
  have hbusy : ∀ (t : Nat) (w : Worker), d.workers[t]? = some w →
      w.phase ≠ .starting ∧ w.phase ≠ .claiming := by
    intro t w hw
    refine ⟨fun hp => hnone t ?_, fun hp => hnone t ?_⟩
    · exact exists_advance_of_ready hw (by rw [hp]; trivial) (by rw [hp]; exact id)
    · exact exists_advance_of_ready hw (by rw [hp]; trivial) (by rw [hp]; exact id)
  have htaken := h.next_eq_items_of_busy hthreads hbusy
  -- the work of some item goes on
  have hsome : {i | ∃ t, d.at? Phase.busy? t = some i}.Nonempty := by
    rcases h.exists_advance_or_waits hleft with hadvance | ⟨t, w, hw, hinside⟩
    · exact absurd hadvance hstuck
    · cases hp : w.phase with
      | working session todo output =>
          exact ⟨session.item, t, at?_eq_some.2 ⟨w, hw, by rw [hp]; rfl⟩⟩
      | _ => rw [hp] at hinside; exact hinside.elim
  -- among those items is one that waits for no other of them
  obtain ⟨i, ⟨t, ht⟩, hmin⟩ := hacyclic.wellFounded.has_min _ hsome
  obtain ⟨⟨phase, failed⟩, hw, hitem⟩ := at?_eq_some.1 ht
  cases phase with
  | working session todo output =>
      obtain rfl : session.item = i := Option.some.inj hitem
      cases todo with
      | nil => exact hnone t (exists_advance_of_ready hw trivial id)
      | cons step rest =>
          by_cases hwait : step.isWait = true
          · have hallows := h.allows_of_minimal htaken hw hwait fun k u hu => hmin k ⟨u, hu⟩
            exact hnone t (exists_advance_of_allows hw hallows)
          · exact hnone t (exists_advance_of_ready hw trivial hwait)
  | _ => cases hitem

end Dispatch

end OrderedDispatch
