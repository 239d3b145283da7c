/-
**Nobody waits for ever.**

A worker can be kept from its next step in three ways only: it sleeps at the gate, it wants the
mutex of the gate while another worker holds it, or it waits inside the work of its item.  Whoever
holds the mutex can always go on and lets go of it.  And a worker never sleeps while its item is the
next to retire: it fell asleep when its item was not next, and whoever retires an item wakes all
sleepers.  So while the mutex is free, the worker that holds the lowest item in flight either runs
that item or is about to take the mutex.

Main definitions:

* `Dispatch.Guarded` — as many workers hold the mutex as the gate says;
* `Dispatch.Vigilant` — nobody sleeps whose item is next, and nobody lingers at the gate;
* `Dispatch.tally` — how often along a run workers go from one place to another.

Main results:

* `Dispatch.Reachable.exists_advance_or_waits` — **while a worker is left, one can go on or waits
  inside the work of its item**;
* `Dispatch.no_deadlock` — if the work of every item returns, a dispatch never gets stuck, no
  wake-up is lost, and what a run can do is bounded by the items and the workers.
-/

import OrderedDispatch.Proofs.Dispatch.Follows

set_option relaxedAutoImplicit false
set_option autoImplicit false

namespace OrderedDispatch

namespace Phase

/-- Whether the worker holds the mutex of the gate. -/
def holdsGate : Phase → Bool
  | retiring _ _ _ call => call.holds
  | _ => false

/-- Whether the worker has not been left behind at a gate where the item `next` is next: it does not
sleep if its item is next, and it does not linger once its item is retired. -/
def Attends (next : Nat) : Phase → Prop
  | retiring item _ _ (.asleep _) => next ≠ item
  | retiring _ _ _ (.done _) => False
  | _ => True

/-- The item with which the worker sleeps at the gate. -/
def asleepWith? : Phase → Option Nat
  | retiring item _ _ (.asleep _) => some item
  | _ => none

/-- Whether the worker waits inside the work of its item. -/
def WaitsInside : Phase → Prop
  | working _ (step :: _) _ => step.isWait = true
  | _ => False

/-- Whether nothing but the work of its item can keep the worker from its next step. -/
def Ready (locked : Bool) : Phase → Prop
  | retiring _ _ _ call => match call with
    | .arriving | .woken _ => locked = false
    | .holding _ => True
    | .asleep _ | .done _ => False
  | exited | dead => False
  | _ => True

/-- Whether a worker comes to hold an item. -/
def claims (before after : Phase) : Bool := before.item?.isNone && after.item?.isSome

/-- Whether a worker gives its item away. -/
def retires (before after : Phase) : Bool := before.item?.isSome && after.item?.isNone

/-- Whether a worker exits or dies. -/
def ends (before after : Phase) : Bool := !before.isFinal && after.isFinal

theorem notified_holdsGate (p : Phase) : p.notified.holdsGate = p.holdsGate := by
  cases p with
  | retiring item output ending call => cases call <;> rfl
  | _ => rfl

/-- Whoever attends to the next item does not sleep with it. -/
theorem Attends.asleepWith?_ne {next : Nat} {p : Phase} (h : p.Attends next) :
    p.asleepWith? ≠ some next := by
  intro hasleep
  cases p with
  | retiring item output ending call =>
      cases call with
      | asleep fault => exact h (Option.some.inj hasleep).symm
      | _ => cases hasleep
  | _ => cases hasleep

/-- Whoever has been woken does not sleep. -/
theorem attends_notified (next next' : Nat) {p : Phase} (h : p.Attends next) :
    p.notified.Attends next' := by
  cases p with
  | retiring item output ending call => cases call <;> first | exact h | trivial
  | _ => trivial

end Phase

namespace Dispatch

variable {σ : Type} {job : Job σ} {sink : σ}

/-! ### The mutex of the gate -/

/-- One worker holds the mutex if it is locked, and none if it is free. -/
def Guarded (d : Dispatch σ) : Prop :=
  d.workers.countP (fun w => w.phase.holdsGate) = d.gate.locked.toNat

/-- A turn changes the number of workers that hold the mutex by what it changes for one. -/
theorem Turn.countP_holdsGate {d d' : Dispatch σ} {t : Nat} {w w' : Worker} {es : List Entry}
    {wakes : Bool} (turn : Turn d d' t w w' es wakes) :
    d'.workers.countP (fun w => w.phase.holdsGate) + w.phase.holdsGate.toNat
      = d.workers.countP (fun w => w.phase.holdsGate) + w'.phase.holdsGate.toNat :=
  turn.countP (p := fun w => w.phase.holdsGate) fun v => Phase.notified_holdsGate v.phase

/-- Taking the free mutex, or letting go of it, keeps the count. -/
theorem Guarded.turn {d d' : Dispatch σ} {t : Nat} {w w' : Worker} {es : List Entry} {wakes : Bool}
    (h : Guarded d) (turn : Turn d d' t w w' es wakes)
    (hlocked : d'.gate.locked.toNat + w.phase.holdsGate.toNat
      = d.gate.locked.toNat + w'.phase.holdsGate.toNat) : Guarded d' := by
  have hcount := turn.countP_holdsGate
  simp only [Guarded] at h ⊢
  omega

/-- The worker that lets go of the mutex was the one that held it. -/
theorem Guarded.locked {d : Dispatch σ} (h : Guarded d) {t : Nat} {w : Worker}
    (hw : d.workers[t]? = some w) (hholds : w.phase.holdsGate = true) : d.gate.locked = true := by
  have hpos : 0 < d.workers.countP (fun w => w.phase.holdsGate) :=
    List.countP_pos_iff.2 ⟨w, List.mem_of_getElem? hw, hholds⟩
  rw [h] at hpos
  cases hl : d.gate.locked with
  | false => simp [hl] at hpos
  | true => rfl

/-- **At most one worker holds the mutex, and one does if it is locked.** -/
theorem Reachable.guarded {d : Dispatch σ} (h : Reachable job sink d) : Guarded d := by
  refine h.invariant ?_ ?_
  · simp [Guarded, Dispatch.start, Phase.holdsGate]
  · intro e e' m _ he hc
    cases hc with
    | between interim =>
        cases interim with
        | begun turn same => exact he.turn turn (by rw [same.gate]; rfl)
        | exited turn noneLeft moved => exact he.turn turn (by rw [moved.gate]; rfl)
        | worked turn effect allowed same => exact he.turn turn (by rw [same.gate]; rfl)
        | arrived turn free moved =>
            exact he.turn turn (by rw [moved.gate, free]; rfl)
        | resumed turn free moved =>
            exact he.turn turn (by rw [moved.gate, free]; rfl)
        | slept turn notNext moved =>
            exact he.turn turn (by rw [moved.gate, he.locked turn.before rfl]; rfl)
        | woken turn same => exact he.turn turn (by rw [same.gate]; rfl)
    | claimed turn opened someLeft moved => exact he.turn turn (by rw [moved.gate]; rfl)
    | finished turn ends take gate ended => exact he.turn turn (by rw [gate]; rfl)
    | retired turn first moved =>
        refine he.turn turn ?_
        rw [moved.gate, he.locked turn.before rfl]
        split <;> rfl

/-! ### No lost wake-up -/

/-- Nobody sleeps whose item is next, and nobody lingers at the gate. -/
def Vigilant (d : Dispatch σ) : Prop :=
  ∀ (t : Nat) (w : Worker), d.workers[t]? = some w → w.phase.Attends d.gate.next

/-- A turn during which the gate stays at its item leaves the other workers as attentive as they
were. -/
theorem Vigilant.turn {d d' : Dispatch σ} {t : Nat} {w w' : Worker} {es : List Entry}
    (h : Vigilant d) (turn : Turn d d' t w w' es false) (hnext : d'.gate.next = d.gate.next)
    (hw' : w'.phase.Attends d.gate.next) : Vigilant d' := by
  rw [Vigilant, hnext]
  exact turn.forall_workers hw' (fun _ u v _ hv => h u v hv) nofun

/-- **No wake-up is lost**: whoever sleeps at the gate, its item is not next. -/
theorem Reachable.vigilant {d : Dispatch σ} (h : Reachable job sink d) : Vigilant d := by
  refine h.invariant (fun t w hw => ?_) ?_
  · obtain rfl := List.eq_of_mem_replicate (List.mem_of_getElem? hw)
    trivial
  · intro e e' m _ he hc
    cases hc with
    | between interim =>
        have hnext := interim.counters.2.2.1
        cases interim with
        | begun turn same => exact he.turn turn hnext trivial
        | exited turn noneLeft moved => exact he.turn turn hnext trivial
        | worked turn effect allowed same => exact he.turn turn hnext trivial
        | arrived turn free moved => exact he.turn turn hnext trivial
        | resumed turn free moved => exact he.turn turn hnext trivial
        | slept turn notNext moved => exact he.turn turn hnext notNext
        | woken turn same => exact he.turn turn hnext trivial
    | claimed turn opened someLeft moved => exact he.turn turn (by rw [moved.gate]) trivial
    | finished turn ends take gate ended => exact he.turn turn (by rw [gate]) trivial
    | retired turn first moved =>
        -- the counter moves, but everybody else is woken
        refine turn.forall_workers ?_ nofun fun _ u v _ hv =>
          Phase.attends_notified _ _ (he u v hv)
        dsimp only
        split <;> trivial

/-! ### Somebody can always go on -/

/-- A worker that is ready can go on, unless it waits inside the work of its item. -/
theorem exists_advance_of_ready {d : Dispatch σ} {t : Nat} {w : Worker}
    (hw : d.workers[t]? = some w) (hready : w.phase.Ready d.gate.locked)
    (hinside : ¬ w.phase.WaitsInside) : ∃ d', d.step? job (.advance t) = some d' := by
  obtain ⟨phase, failed⟩ := w
  simp only [step?, hw, Option.bind_some, advance?]
  cases phase with
  | starting => exact ⟨_, rfl⟩
  | claiming => exact ⟨_, rfl⟩
  | working session todo output =>
      cases todo with
      | nil => exact ⟨_, rfl⟩
      | cons step rest =>
          cases step with
          | allStarted => exact absurd rfl hinside
          | ended item => exact absurd rfl hinside
          | _ => exact ⟨_, rfl⟩
  | retiring item output ending call =>
      have hgate : (d.gate.advance? job.sink t item output call).isSome := by
        rw [Gate.advance?_isSome_iff]
        exact hready
      obtain ⟨s, hs⟩ := Option.isSome_iff_exists.1 hgate
      simp only [retireStep?, hs, Option.map_some]
      exact ⟨_, rfl⟩
  | exited => exact hready.elim
  | dead => exact hready.elim

/-- The worker that holds the next item is ready while the mutex is free. -/
theorem ready_of_item? {next : Nat} {p : Phase} (hitem : p.item? = some next)
    (hattends : p.Attends next) (hholds : p.holdsGate = false) : p.Ready false := by
  cases p with
  | retiring item output ending call =>
      cases call with
      | asleep fault => exact hattends (Option.some.inj hitem).symm
      | done fault => exact hattends
      | holding fault => trivial
      | _ => rfl
  | working session todo output => trivial
  | _ => cases hitem

/-- A worker that is left and holds no item is ready. -/
theorem ready_of_item?_none {locked : Bool} {p : Phase} (hitem : p.item? = none)
    (hleft : p.isFinal = false) : p.Ready locked := by
  cases p <;> trivial

/-- While a worker is left, one of them is ready: the one that holds the mutex, or the one that
holds the next item, or any if no item is in flight. -/
theorem Reachable.exists_ready {d : Dispatch σ} (h : Reachable job sink d)
    (hleft : d.isOver = false) :
    ∃ (t : Nat) (w : Worker), d.workers[t]? = some w ∧ w.phase.Ready d.gate.locked := by
  cases hlocked : d.gate.locked with
  | true =>
      -- the one that holds the mutex looks at the counter next
      have hpos : 0 < d.workers.countP (fun w => w.phase.holdsGate) := by
        rw [h.guarded, hlocked]
        exact Nat.one_pos
      obtain ⟨w, hmem, hholds⟩ := List.countP_pos_iff.1 hpos
      obtain ⟨t, hw⟩ := List.getElem?_of_mem hmem
      refine ⟨t, w, hw, ?_⟩
      cases hp : w.phase with
      | retiring item output ending call =>
          rw [hp] at hholds
          cases call <;> trivial
      | _ => rw [hp] at hholds; cases hholds
  | false =>
      rcases Nat.lt_or_ge d.gate.next d.take.next with hin | hout
      · -- the one that holds the next item has not been left asleep
        obtain ⟨t, ht⟩ := h.window.holder (Nat.le_refl _) hin
        obtain ⟨w, hw, hitem⟩ := at?_eq_some.1 ht
        have hfree : w.phase.holdsGate = false := by
          refine Bool.eq_false_iff.2 fun hholds => ?_
          rw [h.guarded.locked hw hholds] at hlocked
          cases hlocked
        exact ⟨t, w, hw, ready_of_item? hitem (h.vigilant t w hw) hfree⟩
      · obtain ⟨w, hmem, hw⟩ : ∃ w ∈ d.workers, w.phase.isFinal = false := by
          simpa [isOver] using hleft
        obtain ⟨t, ht⟩ := List.getElem?_of_mem hmem
        refine ⟨t, w, ht, ready_of_item?_none ?_ hw⟩
        -- no item is in flight that it could hold
        refine Option.eq_none_iff_forall_ne_some.2 fun i hi => ?_
        have := h.window.within (at?_eq_some.2 ⟨w, ht, hi⟩)
        omega

/-- **While a worker is left, one can go on or waits inside the work of its item.** -/
theorem Reachable.exists_advance_or_waits {d : Dispatch σ} (h : Reachable job sink d)
    (hleft : d.isOver = false) :
    (∃ t d', d.step? job (.advance t) = some d')
      ∨ ∃ (t : Nat) (w : Worker), d.workers[t]? = some w ∧ w.phase.WaitsInside := by
  obtain ⟨t, w, hw, hready⟩ := h.exists_ready hleft
  by_cases hinside : w.phase.WaitsInside
  · exact Or.inr ⟨t, w, hw, hinside⟩
  · exact Or.inl ⟨t, exists_advance_of_ready hw hready hinside⟩

/-- If the work of every item returns, a worker can go on while one is left. -/
theorem Reachable.exists_advance {d : Dispatch σ} (h : Reachable job sink d)
    (hreturns : job.Returns) (hleft : d.isOver = false) :
    ∃ t d', d.step? job (.advance t) = some d' := by
  rcases h.exists_advance_or_waits hleft with hadvance | ⟨t, ⟨phase, failed⟩, hw, hinside⟩
  · exact hadvance
  · cases phase with
    | working session todo output =>
        cases todo with
        | nil => exact hinside.elim
        | cons step rest =>
            rw [Phase.WaitsInside, h.not_isWait hreturns hw] at hinside
            cases hinside
    | _ => exact hinside.elim

/-! ### How much can happen -/

/-- Whether a worker has gone from one place to another so that `p` holds of them. -/
def passes (d d' : Dispatch σ) (p : Phase → Phase → Bool) (t : Nat) : Bool :=
  match d.workers[t]?, d'.workers[t]? with
  | some w, some w' => p w.phase w'.phase
  | _, _ => false

/-- How many moves of a run take their worker from one place to another so that `p` holds of
them. -/
def tally (job : Job σ) (p : Phase → Phase → Bool) : Dispatch σ → List Move → Nat
  | _, [] => 0
  | d, m :: rest =>
      match d.step? job m with
      | none => 0
      | some d' => (d.passes d' p m.thread).toNat + tally job p d' rest

theorem Turn.passes {d d' : Dispatch σ} {t : Nat} {w w' : Worker} {es : List Entry}
    {wakes : Bool} (turn : Turn d d' t w w' es wakes) (p : Phase → Phase → Bool) :
    d.passes d' p t = p w.phase w'.phase := by
  simp only [Dispatch.passes, turn.before, turn.self]

/-- **A quantity that counts the passages of one kind** at each change counts them along a run. -/
theorem add_tally_eq {p : Phase → Phase → Bool} {f : Dispatch σ → Nat}
    (hcounts : ∀ e e' m, Reachable job sink e → Change job e e' m →
      f e + (e.passes e' p m.thread).toNat = f e')
    {moves : List Move} {d d' : Dispatch σ} (h : Reachable job sink d)
    (hrun : d.run? job moves = some d') : f d + d.tally job p moves = f d' := by
  induction moves generalizing d with
  | nil =>
      obtain rfl := Option.some.inj hrun
      rfl
  | cons m rest ih =>
      obtain ⟨e, hstep, hrest⟩ := Option.bind_eq_some_iff.1 hrun
      -- what this move counts, and what the later ones do
      have hhere := hcounts d e m h (change_of_step? hstep)
      have hlater := ih (h.step hstep) hrest
      simp only [tally, hstep]
      omega

/-- A step between is no claim and no retirement. -/
theorem Interim.passes {d d' : Dispatch σ} {m : Move} (h : Interim d d' m) :
    d.passes d' Phase.claims m.thread = false ∧ d.passes d' Phase.retires m.thread = false := by
  obtain ⟨t, w, w', es, ht, turn, -, -, -, -, hparcel⟩ := h.exists_turn
  have hitem : w'.phase.item? = w.phase.item? := by
    rw [Phase.item?_eq_parcel?, Phase.item?_eq_parcel?, hparcel]
  rw [ht, turn.passes, turn.passes, Phase.claims, Phase.retires, hitem]
  cases w.phase.item? <;> exact ⟨rfl, rfl⟩

/-- The take counter counts the claims of a run. -/
theorem Reachable.add_tally_claims {d d' : Dispatch σ} {moves : List Move}
    (h : Reachable job sink d) (hrun : d.run? job moves = some d') :
    d.take.next + d.tally job Phase.claims moves = d'.take.next := by
  refine add_tally_eq (f := fun e => e.take.next) (fun e e' m _ hc => ?_) h hrun
  cases hc with
  | between interim => rw [interim.passes.1, interim.counters.1]; rfl
  | claimed turn opened someLeft moved =>
      rw [Move.thread, turn.passes, moved.next someLeft]
      rfl
  | finished turn ends take gate ended => rw [Move.thread, turn.passes, take]; rfl
  | retired turn first moved =>
      rw [Move.thread, turn.passes, moved.take]
      dsimp only
      split <;> rfl

/-- The retire counter counts the retirements of a run. -/
theorem Reachable.add_tally_retires {d d' : Dispatch σ} {moves : List Move}
    (h : Reachable job sink d) (hrun : d.run? job moves = some d') :
    d.gate.next + d.tally job Phase.retires moves = d'.gate.next := by
  refine add_tally_eq (f := fun e => e.gate.next) (fun e e' m _ hc => ?_) h hrun
  cases hc with
  | between interim => rw [interim.passes.2, interim.counters.2.2.1]; rfl
  | claimed turn opened someLeft moved => rw [Move.thread, turn.passes, moved.gate]; rfl
  | finished turn ends take gate ended => rw [Move.thread, turn.passes, gate]; rfl
  | retired turn first moved =>
      rw [Move.thread, turn.passes, moved.gate]
      dsimp only
      split <;> rfl

/-- The workers that have exited or died are those that did so in the run. -/
theorem Reachable.add_tally_ends {d d' : Dispatch σ} {moves : List Move}
    (h : Reachable job sink d) (hrun : d.run? job moves = some d') :
    d.workers.countP (fun w => w.phase.isFinal) + d.tally job Phase.ends moves
      = d'.workers.countP (fun w => w.phase.isFinal) := by
  refine add_tally_eq (f := fun e => e.workers.countP fun w => w.phase.isFinal)
    (fun e e' m _ hc => ?_) h hrun
  obtain ⟨t, w, w', es, wakes, ht, turn, hfinal⟩ := hc.exists_turn
  have hcount := turn.countP (p := fun w => w.phase.isFinal)
    fun v => Phase.notified_isFinal v.phase
  rw [ht, turn.passes, Phase.ends, hfinal]
  rw [hfinal] at hcount
  simpa using hcount.symm

/-! ### No deadlock -/

/-- Whether a worker sleeps at the gate with an item. -/
def Sleeps (d : Dispatch σ) (t i : Nat) : Prop := d.at? Phase.asleepWith? t = some i

/-- **A dispatch never gets stuck.**  After any moves, if the work of every item returns: while a
worker has neither exited nor died, one can take its next step, which is not a wake-up for no
reason; nobody sleeps at the free gate whose item is next; and there have been no more claims than
items, no more retirements than items, and no more exits and deaths than workers. -/
theorem no_deadlock (hreturns : job.Returns) {moves : List Move} {d : Dispatch σ}
    (hrun : (Dispatch.start job sink).run? job moves = some d) :
    (d.isOver = false → ∃ t d', d.step? job (.advance t) = some d')
      ∧ (d.gate.locked = false → ∀ t, ¬ d.Sleeps t d.gate.next)
      ∧ (Dispatch.start job sink).tally job Phase.claims moves ≤ job.items
      ∧ (Dispatch.start job sink).tally job Phase.retires moves ≤ job.items
      ∧ (Dispatch.start job sink).tally job Phase.ends moves ≤ job.threads := by
  have h : Reachable job sink d := ⟨moves, hrun⟩
  have hclaims := Reachable.start.add_tally_claims hrun
  have hretires := Reachable.start.add_tally_retires hrun
  have hends := Reachable.start.add_tally_ends hrun
  have hordered := h.window.ordered
  have hbounded := h.window.bounded
  refine ⟨h.exists_advance hreturns, fun _ t hsleeps => ?_, by omega, by omega, ?_⟩
  · obtain ⟨w, hw, hasleep⟩ := at?_eq_some.1 hsleeps
    exact (h.vigilant t w hw).asleepWith?_ne hasleep
  · have hle : d.workers.countP (fun w => w.phase.isFinal) ≤ d.workers.length :=
      List.countP_le_length
    rw [h.length_workers] at hle
    omega

/-- In the sample, worker 1 sleeps at the free gate with an item that is not next, and worker 0 can
go on. -/
theorem no_deadlock_sample : ∃ d, (Dispatch.start (sampleJob deadlyScript) {}).run?
    (sampleJob deadlyScript) (sampleMoves.take 9) = some d ∧ d.Sleeps 1 1
      ∧ ¬ d.Sleeps 1 d.gate.next
      ∧ (∃ t d', d.step? (sampleJob deadlyScript) (.advance t) = some d')
      ∧ (Dispatch.start (sampleJob deadlyScript) {}).tally (sampleJob deadlyScript)
        Phase.claims (sampleMoves.take 9) ≤ 3 := by
  have hreturns : (sampleJob deadlyScript).Returns := by
    unfold Job.Returns
    decide
  have hend : ((Dispatch.start (sampleJob deadlyScript) {}).run? (sampleJob deadlyScript)
      (sampleMoves.take 9)).map (fun d => (d.isOver, d.gate.locked, d.at? Phase.asleepWith? 1))
        = some (false, false, some 1) := by decide +kernel
  obtain ⟨d, hrun, hseen⟩ := Option.map_eq_some_iff.1 hend
  obtain ⟨hleft, hseen⟩ := Prod.mk.inj hseen
  obtain ⟨hfree, hasleep⟩ := Prod.mk.inj hseen
  obtain ⟨hadvance, hawake, hclaims, -, -⟩ := no_deadlock hreturns hrun
  exact ⟨d, hrun, hasleep, hawake hfree 1, hadvance hleft, hclaims⟩

end Dispatch

end OrderedDispatch
