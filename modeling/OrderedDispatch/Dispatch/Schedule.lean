/-
**A whole dispatch.**

When several workers can go on, the one with the lowest number does.  Every step brings the dispatch
nearer to its end: a claim uses up an item, a retirement frees a worker, and between those each
worker takes only so many steps.  So the dispatch comes to rest, and then every worker has exited or
died, unless items wait for each other in a circle.

Main definitions:

* `Dispatch.next?` — the step of the first worker that can go on;
* `Dispatch.settle` — those steps until no worker can go on.

Main results:

* `Dispatch.nearer_of_advance` — every step of a worker brings the dispatch nearer to its end.
-/

import OrderedDispatch.Dispatch.Basic

set_option relaxedAutoImplicit false
set_option autoImplicit false

namespace OrderedDispatch

/-! ### The measure -/

/-- A bound on the steps of a call until it sleeps or ends. -/
def CallPhase.weight : CallPhase → Nat
  | arriving => 3
  | woken _ => 3
  | holding _ => 2
  | asleep _ => 1
  | done _ => 0

/-- Whether the worker holds an item, as a number. -/
def Phase.load : Phase → Nat
  | .working _ _ _ => 1
  | .retiring _ _ _ _ => 1
  | _ => 0

/-- A bound on the steps of a worker until it claims or retires an item or exits. -/
def Phase.weight : Phase → Nat
  | .starting => 2
  | .claiming => 1
  | .working _ todo _ => todo.length + 4
  | .retiring _ _ _ call => call.weight
  | .exited => 0
  | .dead => 0

/-- The sum of a quantity over all workers. -/
def Worker.total (f : Phase → Nat) : List Worker → Nat
  | [] => 0
  | w :: rest => f w.phase + Worker.total f rest

/-- Replacing one worker changes a total by what it changes for that worker. -/
theorem Worker.total_set (f : Phase → Nat) {workers : List Worker} {thread : Nat} {w : Worker}
    (h : workers[thread]? = some w) (w' : Worker) :
    Worker.total f (workers.set thread w') + f w.phase
      = Worker.total f workers + f w'.phase := by
  induction workers generalizing thread with
  | nil => simp at h
  | cons v rest ih =>
      cases thread with
      | zero =>
          simp only [List.getElem?_cons_zero, Option.some.injEq] at h
          subst h
          simp only [Worker.total, List.set_cons_zero]
          omega
      | succ n =>
          simp only [List.getElem?_cons_succ] at h
          have := ih h
          simp only [Worker.total, List.set_cons_succ] at this ⊢
          omega

/-- Waking sleepers changes no load. -/
theorem Worker.total_load_notified (workers : List Worker) :
    Worker.total Phase.load (workers.map Worker.notified) = Worker.total Phase.load workers := by
  induction workers with
  | nil => rfl
  | cons w rest ih =>
      have h : w.notified.phase.load = w.phase.load := by
        rcases w with ⟨phase, failed⟩
        cases phase <;> rfl
      simp only [List.map_cons, Worker.total, h, ih]

namespace Dispatch

variable {σ : Type}

/-- The items that nobody has claimed yet. -/
def unclaimed (d : Dispatch σ) : Nat := d.take.limit - d.take.next

/-- The items that some worker holds. -/
def held (d : Dispatch σ) : Nat := Worker.total Phase.load d.workers

/-- The steps that the workers may take until one claims or retires an item or exits. -/
def stepsLeft (d : Dispatch σ) : Nat := Worker.total Phase.weight d.workers

/-- Whether a dispatch is nearer to its end than another: fewer items are unclaimed, or as many are
and fewer are held, or as many are held and fewer steps are left until that changes. -/
def Nearer (d' d : Dispatch σ) : Prop :=
  d'.unclaimed < d.unclaimed ∨ (d'.unclaimed = d.unclaimed ∧
    (d'.held < d.held ∨ (d'.held = d.held ∧ d'.stepsLeft < d.stepsLeft)))

/-- A step of a worker that touches neither the cursor nor its load, but makes it lighter. -/
theorem nearer_of_weight {d d' : Dispatch σ} {thread : Nat} {w w' : Worker}
    (hw : d.workers[thread]? = some w) (htake : d'.take = d.take)
    (hset : d'.workers = d.workers.set thread w') (hload : w'.phase.load = w.phase.load)
    (hweight : w'.phase.weight < w.phase.weight) : Nearer d' d := by
  have h1 := Worker.total_set Phase.load hw w'
  have h2 := Worker.total_set Phase.weight hw w'
  refine Or.inr ⟨by simp only [unclaimed, htake], Or.inr ⟨?_, ?_⟩⟩
  · simp only [held, hset]
    omega
  · simp only [stepsLeft, hset]
    omega

theorem claim_nearer {job : Job σ} {d : Dispatch σ} {thread : Nat} {w : Worker}
    (hw : d.workers[thread]? = some w) (hp : w.phase = .claiming) :
    Nearer (d.claim job thread w) d := by
  simp only [claim]
  split
  · rename_i hnone
    have hle : d.take.limit ≤ d.take.next := by
      simp only [TakeCursor.offer] at hnone
      split at hnone
      · simp at hnone
      · omega
    have h1 := Worker.total_set Phase.load hw
      ⟨.exited, w.failed || d.take.offer.fault.isSome⟩
    have h2 := Worker.total_set Phase.weight hw
      ⟨.exited, w.failed || d.take.offer.fault.isSome⟩
    simp only [hp, Phase.load, Phase.weight] at h1 h2
    refine Or.inr ⟨?_, Or.inr ⟨?_, ?_⟩⟩
    · simp only [unclaimed, withWorker, record, TakeCursor.claimed, Nat.not_lt.2 hle, if_false]
    · simp only [held, withWorker, record]
      omega
    · simp only [stepsLeft, withWorker, record]
      omega
  · rename_i item hsome
    have hlt := (TakeCursor.offer_index_eq_some.1 hsome).1
    refine Or.inl ?_
    simp only [unclaimed, withWorker, record, TakeCursor.claimed, hlt, if_true]
    omega

theorem workStep?_nearer {d d' : Dispatch σ} {thread : Nat} {w : Worker} {session : Session}
    {todo : Script} {output : List UInt8} (hw : d.workers[thread]? = some w)
    (hp : w.phase = .working session todo output)
    (h : d.workStep? thread w session output todo = some d') : Nearer d' d := by
  have done : ∀ ending, Nearer (d.endWork thread w session output ending) d := fun ending =>
    nearer_of_weight hw rfl rfl (by rw [hp]; rfl)
      (by rw [hp]; simp only [Phase.weight, CallPhase.weight]; omega)
  cases todo with
  | nil => exact Option.some.inj h ▸ done _
  | cons step rest =>
      cases step with
      | fail message => exact Option.some.inj h ▸ done _
      | panic => exact Option.some.inj h ▸ done _
      | kill => exact Option.some.inj h ▸ done _
      | write bytes =>
          exact Option.some.inj h ▸ nearer_of_weight hw rfl rfl (by rw [hp]; rfl)
            (by rw [hp]; simp only [Phase.weight, List.length_cons]; omega)
      | note event =>
          exact Option.some.inj h ▸ nearer_of_weight hw rfl rfl (by rw [hp]; rfl)
            (by rw [hp]; simp only [Phase.weight, List.length_cons]; omega)
      | hook k =>
          exact Option.some.inj h ▸ nearer_of_weight hw rfl rfl (by rw [hp]; rfl)
            (by rw [hp]; simp only [Phase.weight, List.length_cons]; omega)
      | allStarted =>
          simp only [workStep?, Option.ite_none_right_eq_some, Option.some.injEq] at h
          exact h.2 ▸ nearer_of_weight hw rfl rfl (by rw [hp]; rfl)
            (by rw [hp]; simp only [Phase.weight, List.length_cons]; omega)
      | ended item =>
          simp only [workStep?, Option.ite_none_right_eq_some, Option.some.injEq] at h
          exact h.2 ▸ nearer_of_weight hw rfl rfl (by rw [hp]; rfl)
            (by rw [hp]; simp only [Phase.weight, List.length_cons]; omega)

theorem retireStep?_nearer {job : Job σ} {d d' : Dispatch σ} {thread : Nat} {w : Worker}
    {item : Nat} {output : List UInt8} {ending : Ending} {call : CallPhase}
    (hw : d.workers[thread]? = some w) (hp : w.phase = .retiring item output ending call)
    (h : d.retireStep? job thread w item output ending call = some d') : Nearer d' d := by
  simp only [retireStep?, Option.map_eq_some_iff] at h
  obtain ⟨s, hs, rfl⟩ := h
  have lighter : s.phase.weight < call.weight := by
    revert hs
    cases call <;> simp only [Gate.advance?] <;> (try split) <;>
      simp only [Option.some.injEq, reduceCtorEq, false_implies] <;> rintro rfl <;>
      simp [CallPhase.weight]
  cases hphase : s.phase with
  | done fault =>
      refine Or.inr ⟨rfl, Or.inl ?_⟩
      have h1 := Worker.total_set Phase.load hw (afterRetiring w ending fault)
      have h2 : (afterRetiring w ending fault).phase.load = 0 := by
        simp only [afterRetiring]
        split <;> rfl
      have h3 : w.phase.load = 1 := by rw [hp]; rfl
      simp only [held, withWorker, record]
      split
      · rw [Worker.total_load_notified]
        omega
      · omega
  | arriving =>
      exact nearer_of_weight hw rfl rfl (by rw [hp]; rfl)
        (by rw [hp]; simpa only [Phase.weight, hphase] using lighter)
  | holding fault =>
      exact nearer_of_weight hw rfl rfl (by rw [hp]; rfl)
        (by rw [hp]; simpa only [Phase.weight, hphase] using lighter)
  | asleep fault =>
      exact nearer_of_weight hw rfl rfl (by rw [hp]; rfl)
        (by rw [hp]; simpa only [Phase.weight, hphase] using lighter)
  | woken fault =>
      exact nearer_of_weight hw rfl rfl (by rw [hp]; rfl)
        (by rw [hp]; simpa only [Phase.weight, hphase] using lighter)

/-- Every step of a worker brings the dispatch nearer to its end. -/
theorem nearer_of_advance {job : Job σ} {d d' : Dispatch σ} {thread : Nat}
    (h : d.step? job (.advance thread) = some d') : Nearer d' d := by
  simp only [step?, Option.bind_eq_some_iff] at h
  obtain ⟨w, hw, h⟩ := h
  cases hp : w.phase with
  | starting =>
      simp only [advance?, hp, Option.some.injEq] at h
      exact h ▸ nearer_of_weight hw rfl rfl (by rw [hp]; rfl) (by rw [hp]; simp [Phase.weight])
  | claiming =>
      simp only [advance?, hp, Option.some.injEq] at h
      exact h ▸ claim_nearer hw hp
  | working session todo output =>
      simp only [advance?, hp] at h
      exact workStep?_nearer hw hp h
  | retiring item output ending call =>
      simp only [advance?, hp] at h
      exact retireStep?_nearer hw hp h
  | exited => simp [advance?, hp] at h
  | dead => simp [advance?, hp] at h

/-! ### Running to the end -/

/-- The step of the first worker, from a number on, that can go on. -/
def nextFrom? (job : Job σ) (d : Dispatch σ) (thread : Nat) : Nat → Option (Dispatch σ)
  | 0 => none
  | left + 1 =>
      match d.step? job (.advance thread) with
      | some d' => some d'
      | none => nextFrom? job d (thread + 1) left

/-- The step of the first worker that can go on. -/
def next? (job : Job σ) (d : Dispatch σ) : Option (Dispatch σ) :=
  d.nextFrom? job 0 d.workers.length

theorem nearer_of_nextFrom? {job : Job σ} {d d' : Dispatch σ} {thread left : Nat}
    (h : d.nextFrom? job thread left = some d') : Nearer d' d := by
  induction left generalizing thread with
  | zero => simp [nextFrom?] at h
  | succ left ih =>
      simp only [nextFrom?] at h
      split at h
      · rename_i d'' hstep
        exact Option.some.inj h ▸ nearer_of_advance hstep
      · exact ih h

/-- The workers go on until none can. -/
def settle (job : Job σ) (d : Dispatch σ) : Dispatch σ :=
  match _ : d.next? job with
  | none => d
  | some d' => settle job d'
  termination_by (d.unclaimed, d.held, d.stepsLeft)
  decreasing_by
    have h : Nearer d' d := nearer_of_nextFrom? ‹_›
    simp only [Nearer] at h
    simp only [Prod.lex_def]
    exact h

end Dispatch

end OrderedDispatch
